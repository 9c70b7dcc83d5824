import TptIdentity.PolyRepeat
import TptIdentity.RecoverySplit

/-!
# Combining a share twice

`Combine` does not look for repeated indices, whose terms disappear. The secret is recovered
exactly when these do no harm in the sense of `PolyShare.Harmless` (`combine_chosen_iff`).
-/

namespace TptIdentity.Recovery

open Go List UInt8

def chosen (shares : List Share) (positions : List Nat) : List Share :=
  positions.filterMap fun i => shares[i]?

def indices (positions : List Nat) : Bytes := positions.map fun i => ofNat (i + 1)

def SecretOrError (secret : Bytes) (r : Res Bytes) : Prop := r = .ok secret ∨ ∃ e, r = .err e

theorem chosen_dealt (share : UInt8 → Share) {n : Nat} {positions : List Nat}
    (h : ∀ i ∈ positions, i < n) :
    chosen ((List.range n).map fun i => share (ofNat (i + 1))) positions
      = (indices positions).map share := by
  have hget : ∀ i ∈ positions, ((List.range n).map fun i => share (ofNat (i + 1)))[i]?
      = some (share (ofNat (i + 1))) := by
    intro i hi
    simp [h i hi]
  rw [chosen, filterMap_congr hget, indices, map_map]
  exact congrFun filterMap_eq_map positions

theorem node_indices_ne_zero {n : Nat} (hn : n ≤ 255) {positions : List Nat}
    (h : ∀ i ∈ positions, i < n) : ∀ i ∈ Finset.range (indices positions).length,
      node (indices positions) i ≠ 0 := by
  intro i hi hzero
  have hi : i < (indices positions).length := Finset.mem_range.mp hi
  have hbyte : (indices positions).getD i 0 = 0 := congrArg GF256.byte hzero
  rw [getD_eq_getElem _ _ hi] at hbyte
  obtain ⟨j, hj, hx⟩ := List.mem_map.mp (getElem_mem hi)
  have hnat := congrArg toNat (hx.trans hbyte)
  have hlt := h j hj
  rw [toNat_ofNat'] at hnat
  have hzero : toNat 0 = 0 := rfl
  omega

/-! ## Polynomials as drawn coefficients -/

theorem bytePoly_coeff {f : Polynomial GF256} {t : Nat} (hf : f.degree < (t + 1 : ℕ)) :
    bytePoly (f.coeff 0).byte ((List.range t).map fun j => (f.coeff (j + 1)).byte) = f := by
  have hpoly : ∀ (l : List GF256) (m : Nat), (PolyShare.polyOf l).coeff m = l.getD m 0 := by
    intro l
    induction l with
    | nil => simp [PolyShare.polyOf]
    | cons c l ih =>
      intro m
      cases m with
      | zero => simp [PolyShare.polyOf]
      | succ m => simp [PolyShare.polyOf, ih]
  ext1 m
  rw [bytePoly, hpoly]
  cases m with
  | zero => rfl
  | succ m =>
    by_cases hm : m < t
    · simp [hm]
    · rw [getD_eq_default _ _ (by simpa using hm),
        (Polynomial.degree_lt_iff_coeff_zero f (t + 1)).mp hf (m + 1) (by omega)]

/-! ## Which choices are combined to the secret -/

theorem gfLagrange_eq_iff (xs : Bytes) (secretByte : UInt8) (drawn : Bytes) :
    gfLagrange xs (xs.map (gfPolyEval (secretByte :: drawn))) = secretByte
      ↔ ∑ i ∈ Finset.range xs.length, (bytePoly secretByte drawn).eval (node xs i)
          * PolyShare.weight (Finset.range xs.length) (node xs) i
        = (bytePoly secretByte drawn).eval 0 := by
  rw [eval_zero_bytePoly]
  have hsum := mk_gfLagrange_gfPolyEval xs secretByte drawn
  constructor
  · intro h
    rw [h] at hsum
    exact hsum.symm
  · intro h
    exact congrArg GF256.byte (hsum.trans h)

/-- Shares with repetitions combine to the secret exactly if the repetitions are harmless to
interpolation. -/
theorem combine_chosen_iff {t n : Int} (ht : 2 ≤ t) (htn : t ≤ n) (hn : n ≤ 255)
    {positions : List Nat} (hpositions : ∀ i ∈ positions, i < n.toNat)
    (hdistinct : t ≤ positions.toFinset.card) :
    (∀ secret rnd shares, split secret t n rnd = .ok shares →
        SecretOrError secret (combine (chosen shares positions)))
      ↔ PolyShare.Harmless (Finset.range positions.length) (node (indices positions)) t.toNat := by
  have hlen : (indices positions).length = positions.length := length_map ..
  have h2 : 2 ≤ (indices positions).length := by
    have hcard := positions.toFinset_card_le
    omega
  have hcombine : ∀ secret drawn, combine (chosen ((List.range n.toNat).map fun i =>
      shareOf secret drawn (ofNat (i + 1))) positions) = .ok (secret.mapIdx fun b s =>
        gfLagrange (indices positions) ((indices positions).map (gfPolyEval (s :: drawn b)))) := by
    intro secret drawn
    rw [chosen_dealt _ hpositions, combine_shareOf _ _ h2]
  obtain ⟨k, hk⟩ : ∃ k, t.toNat = k + 1 := ⟨t.toNat - 1, by omega⟩
  rw [← PolyShare.forall_sum_weight_iff (hlen ▸ node_indices_ne_zero (by omega) hpositions), hk]
  constructor
  · -- a polynomial is dealt as a secret of one byte
    intro h f hf
    have hne : [(f.coeff 0).byte] ≠ [] := cons_ne_nil _ _
    have hsplit := split_eq_ok hne ht htn hn
      fun _ j => (f.coeff (j + 1)).byte
    have hsecret := h _ _ _ hsplit
    rw [hcombine] at hsecret
    rcases hsecret with hok | ⟨e, herr⟩
    · have hbyte := (List.cons.inj (Res.ok.inj hok)).1
      rw [gfLagrange_eq_iff, hk, Nat.add_sub_cancel, bytePoly_coeff hf, hlen] at hbyte
      exact hbyte
    · cases herr
  · intro h secret rnd shares hsplit
    obtain ⟨-, -, rfl⟩ := split_eq_ok_iff.mp hsplit
    rw [hcombine]
    refine .inl (congrArg Res.ok (ext_getElem (by simp) fun b hb hb' => ?_))
    rw [getElem_mapIdx, gfLagrange_eq_iff, hlen]
    refine h _ ?_
    have hdeg := degree_bytePoly_lt secret[b] ((List.range (t.toNat - 1)).map (rnd.byte b))
    rwa [length_map, length_range, (by omega : t.toNat - 1 + 1 = k + 1)] at hdeg

theorem combine_chosen_distinct :
    split [0x2a] 2 3 (Rand.of fun _ _ => 1)
        = .ok [⟨1, [0x2b]⟩, ⟨2, [0x28]⟩, ⟨3, [0x29]⟩]
      ∧ SecretOrError [0x2a] (combine (chosen [⟨1, [0x2b]⟩, ⟨2, [0x28]⟩, ⟨3, [0x29]⟩] [0, 2])) := by
  have hnodup : (indices [0, 2]).Nodup := by decide
  have hinj : Set.InjOn (node (indices [0, 2])) (Finset.range [0, 2].length) := injOn_node hnodup
  have hharmless := PolyShare.harmless_of_injOn hinj (t := Int.toNat 2) (by decide)
  have hsplit : split [0x2a] 2 3 (Rand.of fun _ _ => 1)
      = .ok [⟨1, [0x2b]⟩, ⟨2, [0x28]⟩, ⟨3, [0x29]⟩] := by decide
  have hsecret := (combine_chosen_iff (t := 2) (n := 3) (by decide) (by decide) (by decide)
    (by decide) (by decide)).mpr hharmless
  exact ⟨hsplit, hsecret _ _ _ hsplit⟩

theorem combine_repeated_share :
    split [0x2a] 2 3 (Rand.of fun _ _ => 1)
        = .ok [⟨1, [0x2b]⟩, ⟨2, [0x28]⟩, ⟨3, [0x29]⟩]
      ∧ 2 ≤ [0, 0, 1].toFinset.card
      ∧ combine (chosen [⟨1, [0x2b]⟩, ⟨2, [0x28]⟩, ⟨3, [0x29]⟩] [0, 0, 1]) = .ok [0x08] :=
  ⟨by decide, by decide, by decide +kernel⟩

end TptIdentity.Recovery
