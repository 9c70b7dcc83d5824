import Mathlib.Data.List.GetD
import TptIdentity.PolyShare
import TptIdentity.RecoveryDeal
import TptIdentity.RecoveryField

/-!
# Any threshold of shares recovers the secret

`gfPolyEval` is Horner's rule (`mk_gfPolyEval`), and the loops of `gfLagrange` are the
interpolation weights at `0` (`mk_gfLagrange`). Recovery is then `PolyShare.lagrange_at_zero`,
byte by byte.
-/

namespace TptIdentity.Recovery

open Go List

/-! ## The loops as field expressions -/

theorem mk_gfPolyEval (x : UInt8) : ∀ coeffs : Bytes,
    (⟨gfPolyEval coeffs x⟩ : GF256) = PolyShare.horner (coeffs.map GF256.mk) ⟨x⟩
  | [] => rfl
  | c :: cs => by
    have ih := mk_gfPolyEval x cs
    simp only [gfPolyEval, PolyShare.horner, map_cons, foldr_cons] at ih ⊢
    rw [GF256.mk_xor, GF256.mk_gfMul, ih]

theorem prod_range_succ_erase (f : Nat → GF256) (i n : Nat) :
    ∏ j ∈ (Finset.range (n + 1)).erase i, f j
      = (∏ j ∈ (Finset.range n).erase i, f j) * (if i = n then 1 else f n) := by
  by_cases h : i = n
  · subst h
    rw [if_pos rfl, mul_one, Finset.range_add_one, Finset.erase_insert Finset.notMem_range_self,
      Finset.erase_eq_of_notMem Finset.notMem_range_self]
  · rw [if_neg h, Finset.range_add_one, Finset.erase_insert_of_ne (Ne.symm h),
      Finset.prod_insert (by simp), mul_comm]

def node (xs : Bytes) (j : Nat) : GF256 := ⟨xs.getD j 0⟩

variable {shares : List Share} {secret : Bytes} (xs : Bytes) (secretByte : UInt8) (drawn : Bytes)

theorem mk_gfWeight (i : Nat) :
    (⟨(gfWeight xs i).1⟩ : GF256) = ∏ j ∈ (Finset.range xs.length).erase i, node xs j
      ∧ (⟨(gfWeight xs i).2⟩ : GF256)
        = ∏ j ∈ (Finset.range xs.length).erase i, (node xs i + node xs j) := by
  unfold gfWeight
  induction xs.length with
  | zero => exact ⟨rfl, rfl⟩
  | succ n ih =>
    rw [range_succ, foldl_append, prod_range_succ_erase, prod_range_succ_erase]
    obtain ⟨hnum, hden⟩ := ih
    by_cases h : i = n
    · simp only [foldl_cons, foldl_nil, if_pos h, mul_one]
      exact ⟨hnum, hden⟩
    · simp only [foldl_cons, foldl_nil, if_neg h]
      rw [GF256.mk_gfMul, GF256.mk_gfMul, GF256.mk_xor, hnum, hden]
      exact ⟨rfl, rfl⟩

theorem mk_gfLagrange (ys : Bytes) :
    (⟨gfLagrange xs ys⟩ : GF256) = ∑ i ∈ Finset.range xs.length,
      node ys i * ((∏ j ∈ (Finset.range xs.length).erase i, node xs j)
        * (∏ j ∈ (Finset.range xs.length).erase i, (node xs j - node xs i))⁻¹) := by
  have hfold : ∀ n, (⟨(List.range n).foldl (fun result i =>
      result ^^^ gfMul (ys.getD i 0) (gfMul (gfWeight xs i).1 (gfInv (gfWeight xs i).2))) 0⟩
        : GF256)
      = ∑ i ∈ Finset.range n, node ys i * ((∏ j ∈ (Finset.range xs.length).erase i, node xs j)
          * (∏ j ∈ (Finset.range xs.length).erase i, (node xs j - node xs i))⁻¹) := by
    intro n
    induction n with
    | zero => rfl
    | succ n ih =>
      obtain ⟨hnum, hden⟩ := mk_gfWeight xs n
      have hsub : ∀ j, node xs j - node xs n = node xs n + node xs j := fun j => by
        rw [GF256.sub_eq_add, add_comm]
      rw [range_succ, foldl_append, Finset.sum_range_succ]
      simp only [foldl_cons, foldl_nil]
      rw [GF256.mk_xor, ih, GF256.mk_gfMul, GF256.mk_gfMul, GF256.mk_inv, hnum, hden]
      simp only [hsub]
      rfl
  exact hfold xs.length

noncomputable def bytePoly (secretByte : UInt8) (drawn : Bytes) : Polynomial GF256 :=
  PolyShare.polyOf ((secretByte :: drawn).map GF256.mk)

theorem degree_bytePoly_lt :
    (bytePoly secretByte drawn).degree < ((drawn.length + 1 : ℕ) : WithBot ℕ) := by
  have h := PolyShare.degree_polyOf_lt ((secretByte :: drawn).map GF256.mk)
  rwa [length_map, length_cons] at h

theorem eval_zero_bytePoly : (bytePoly secretByte drawn).eval 0 = ⟨secretByte⟩ :=
  PolyShare.polyOf_eval_zero _ _

theorem node_map_gfPolyEval {i : Nat} (hi : i < xs.length) :
    node (xs.map (gfPolyEval (secretByte :: drawn))) i
      = (bytePoly secretByte drawn).eval (node xs i) := by
  rw [bytePoly, PolyShare.eval_polyOf, node, node, ← mk_gfPolyEval,
    getD_eq_getElem _ _ (by simpa using hi), getD_eq_getElem _ _ hi, getElem_map]

theorem mk_gfLagrange_gfPolyEval :
    (⟨gfLagrange xs (xs.map (gfPolyEval (secretByte :: drawn)))⟩ : GF256)
      = ∑ i ∈ Finset.range xs.length, (bytePoly secretByte drawn).eval (node xs i)
        * ((∏ j ∈ (Finset.range xs.length).erase i, node xs j)
          * (∏ j ∈ (Finset.range xs.length).erase i, (node xs j - node xs i))⁻¹) := by
  rw [mk_gfLagrange]
  refine Finset.sum_congr rfl fun i hi => ?_
  rw [node_map_gfPolyEval xs secretByte drawn (Finset.mem_range.mp hi)]

theorem injOn_node {xs : Bytes} (hxs : xs.Nodup) :
    Set.InjOn (node xs) (Finset.range xs.length) := by
  intro i hi j hj hij
  have hi : i < xs.length := by simpa using hi
  have hj : j < xs.length := by simpa using hj
  have hget : xs.getD i 0 = xs.getD j 0 := congrArg GF256.byte hij
  rw [getD_eq_getElem _ _ hi, getD_eq_getElem _ _ hj] at hget
  exact (List.Nodup.getElem_inj_iff hxs).mp hget

theorem gfLagrange_gfPolyEval {xs : Bytes} {secretByte : UInt8} {drawn : Bytes}
    (hxs : xs.Nodup) (hlen : drawn.length < xs.length) :
    gfLagrange xs (xs.map (gfPolyEval (secretByte :: drawn))) = secretByte := by
  have hdeg : (bytePoly secretByte drawn).degree < (Finset.range xs.length).card := by
    refine lt_of_lt_of_le (degree_bytePoly_lt secretByte drawn) ?_
    rw [Finset.card_range]
    exact_mod_cast hlen
  have hsum := mk_gfLagrange_gfPolyEval xs secretByte drawn
  rw [PolyShare.lagrange_at_zero (injOn_node hxs) hdeg, eval_zero_bytePoly] at hsum
  exact congrArg GF256.byte hsum

/-! ## Recovery -/

theorem combine_eq_ok {len : Nat} (h2 : 2 ≤ shares.length)
    (hlen : ∀ s ∈ shares, s.value.length = len) :
    combine shares = .ok ((List.range len).map fun b =>
      gfLagrange (shares.map (·.index)) (shares.map fun s => s.value.getD b 0)) := by
  match shares, h2 with
  | s₀ :: s₁ :: rest, _ =>
    have hs₀ : s₀.value.length = len := hlen s₀ (mem_cons_self ..)
    have hany : ¬((s₁ :: rest).any fun s => s.value.length ≠ s₀.value.length) := by
      simp only [any_eq_true, not_exists, not_and]
      intro s hs
      simp [hs₀, hlen s (mem_cons_of_mem _ hs)]
    rw [combine, if_neg hany, hs₀]
    simp

theorem combine_shareOf (secret : Bytes) (drawn : Nat → Bytes) {xs : Bytes} (h2 : 2 ≤ xs.length) :
    combine (xs.map (shareOf secret drawn)) = .ok (secret.mapIdx fun b s =>
      gfLagrange xs (xs.map (gfPolyEval (s :: drawn b)))) := by
  have hlen : ∀ s ∈ xs.map (shareOf secret drawn), s.value.length = secret.length := by
    intro s hs
    obtain ⟨x, -, rfl⟩ := List.mem_map.mp hs
    simp [shareOf]
  rw [combine_eq_ok (by simpa using h2) hlen, map_map]
  congr 1
  refine ext_getElem (by simp) fun b hb hb' => ?_
  have hb : b < secret.length := by simpa using hb
  rw [getElem_map, getElem_range, getElem_mapIdx, map_map]
  congr 1
  · simp [Function.comp_def, shareOf]
  · refine map_congr_left fun x _ => ?_
    simp [shareOf, hb]

/-- However the coefficients were drawn, any `t` of the dealt shares give the secret back. -/
theorem combine_dealt {t n : Int} {rnd : Rand} {sub : List Share}
    (h : split secret t n rnd = .ok shares) (hsub : ∀ s ∈ sub, s ∈ shares)
    (hnodup : (sub.map (·.index)).Nodup) (hcount : t ≤ sub.length) : combine sub = .ok secret := by
  obtain ⟨⟨-, ht, -, -⟩, -, rfl⟩ := split_eq_ok_iff.mp h
  have hshares : sub = (sub.map (·.index)).map
      (shareOf secret fun b => (List.range (t.toNat - 1)).map (rnd.byte b)) := by
    rw [map_map]
    refine (map_id sub).symm.trans (map_congr_left fun s hs => ?_)
    obtain ⟨i, -, rfl⟩ := List.mem_map.mp (hsub s hs)
    rfl
  have hlen : 2 ≤ (sub.map (·.index)).length := by
    rw [length_map]
    omega
  rw [hshares, combine_shareOf _ _ hlen]
  congr 1
  refine ext_getElem (by simp) fun b hb hb' => ?_
  rw [getElem_mapIdx]
  refine gfLagrange_gfPolyEval hnodup ?_
  simp only [length_map, length_range]
  omega

/-- A secret can be split into `n` shares, and any `t` of them in any order give it back. -/
theorem combine_split {t n : Int} (hne : secret ≠ []) (ht : 2 ≤ t) (htn : t ≤ n) (hn : n ≤ 255)
    (byte : Nat → Nat → UInt8) :
    ∃ shares, split secret t n (Rand.of byte) = .ok shares
      ∧ ∀ sub : List Share, (∀ s ∈ sub, s ∈ shares) → (sub.map (·.index)).Nodup →
          t ≤ sub.length → combine sub = .ok secret := by
  have hsplit := split_eq_ok hne ht htn hn byte
  exact ⟨_, hsplit, fun _ hsub hnodup hcount => combine_dealt hsplit hsub hnodup hcount⟩

theorem combine_split_two_of_three :
    ∃ shares, split [0x2a, 0x07] 2 3 (Rand.of fun i _ => UInt8.ofNat (i + 1)) = .ok shares
      ∧ combine (shares.drop 1).reverse = .ok [0x2a, 0x07] := by
  obtain ⟨shares, hsplit, hcombine⟩ := @combine_split [0x2a, 0x07] 2 3
    (by decide) (by decide) (by decide) (by decide) fun i _ => UInt8.ofNat (i + 1)
  have hdealt : split [0x2a, 0x07] 2 3 (Rand.of fun i _ => UInt8.ofNat (i + 1))
      = .ok [⟨1, [0x2b, 0x05]⟩, ⟨2, [0x28, 0x03]⟩, ⟨3, [0x29, 0x01]⟩] := by decide
  obtain rfl : _ = shares := Res.ok.inj (hdealt.symm.trans hsplit)
  exact ⟨_, hsplit, hcombine _ (by decide) (by decide) (by decide)⟩

end TptIdentity.Recovery
