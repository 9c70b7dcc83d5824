import TptIdentity.RecoveryModel

/-!
# What a split deals

The share with index `x` holds the values at `x` of one polynomial per secret byte (`shareOf`).
`split_eq_ok_iff` says what `split` returns, and when.
-/

namespace TptIdentity.Recovery

open Go List Res

def shareOf (secret : Bytes) (drawn : Nat → Bytes) (x : UInt8) : Share :=
  ⟨x, secret.mapIdx fun b s => gfPolyEval (s :: drawn b) x⟩

theorem shareOf_index (secret : Bytes) (drawn : Nat → Bytes) (x : UInt8) :
    (shareOf secret drawn x).index = x := rfl

theorem splitLoop_eq_ok (byte : Nat → Nat → UInt8) (t : Nat) (xs : List UInt8) :
    ∀ (rest : Bytes) (k : Nat) (pre : UInt8 → Bytes), (∀ x, (pre x).length = k) →
      splitLoop t (Rand.of byte) (xs.map fun x => ⟨x, pre x ++ replicate rest.length 0⟩) k rest
        = .ok (xs.map fun x => ⟨x, pre x ++ rest.mapIdx fun j s =>
            gfPolyEval (s :: (range (t - 1)).map (byte (k + j))) x⟩)
  | [], k, pre, _ => by simp [splitLoop]
  | b :: rest, k, pre, hpre => by
    have hset : ∀ x v, (pre x ++ replicate (b :: rest).length 0).set k v
        = (pre x ++ [v]) ++ replicate rest.length 0 := by
      intro x v
      rw [length_cons, replicate_succ, set_append_right _ _ (hpre x).le, hpre x, Nat.sub_self]
      simp
    have ih := splitLoop_eq_ok byte t xs rest (k + 1)
      (fun x => pre x ++ [gfPolyEval (b :: (range (t - 1)).map (byte k)) x])
      (fun x => by simp [hpre x])
    simp only [splitLoop, splitByte, Rand.of_read, wrapErr_ok, ok_bind,
      pure_eq_ok, map_map, Function.comp_def, hset]
    rw [ih]
    simp only [mapIdx_cons, append_assoc, singleton_append, Nat.add_zero,
      Nat.add_assoc, Nat.add_comm 1]

theorem split_eq_ok {secret : Bytes} {t n : Int} (hne : secret ≠ []) (ht : 2 ≤ t)
    (htn : t ≤ n) (hn : n ≤ 255) (byte : Nat → Nat → UInt8) :
    split secret t n (Rand.of byte) = .ok ((range n.toNat).map fun i =>
      shareOf secret (fun b => (range (t.toNat - 1)).map (byte b)) (UInt8.ofNat (i + 1))) := by
  have hlen : secret.length ≠ 0 := by simpa using hne
  have hpar : ¬(t < 2 ∨ t > n ∨ n > 255) := by omega
  have h := splitLoop_eq_ok byte t.toNat
    ((range n.toNat).map fun i => UInt8.ofNat (i + 1)) secret 0 (fun _ => []) (fun _ => rfl)
  simp only [map_map, Function.comp_def, nil_append, Nat.zero_add] at h
  rw [split, if_neg hlen, if_neg hpar]
  exact h

/-! ## Reads that fail -/

theorem Rand.read_eq_ok {rnd : Rand} {i n : Nat} {b : Bytes} :
    rnd.read i n = .ok b ↔ rnd.fails i = none ∧ b = (range n).map (rnd.byte i) := by
  unfold Rand.read
  cases h : rnd.fails i with
  | none => simp [eq_comm]
  | some e => simp

theorem splitLoop_eq_ok_iff {t : Nat} {rnd : Rand} {out : List Share} :
    ∀ {rest : Bytes} {shares : List Share} {k : Nat}, splitLoop t rnd shares k rest = .ok out ↔
        (∀ i < rest.length, rnd.fails (k + i) = none)
          ∧ splitLoop t (Rand.of rnd.byte) shares k rest = .ok out
  | [], _, _ => by simp [splitLoop]
  | b :: rest, shares, k => by
    have hfirst : (∀ i < (b :: rest).length, rnd.fails (k + i) = none)
        ↔ rnd.fails k = none ∧ ∀ i < rest.length, rnd.fails (k + 1 + i) = none := by
      constructor
      · intro h
        refine ⟨h 0 (by simp), fun i hi => ?_⟩
        rw [Nat.add_assoc, Nat.add_comm 1]
        exact h (i + 1) (by simpa using hi)
      · rintro ⟨hk, h⟩ i hi
        cases i with
        | zero => exact hk
        | succ i =>
          rw [Nat.add_comm i, ← Nat.add_assoc]
          exact h i (by simpa using hi)
    simp only [splitLoop, splitByte, bind_eq_ok, wrapErr_eq_ok, Rand.read_eq_ok,
      pure_eq_ok, Res.ok.injEq, hfirst]
    constructor
    · rintro ⟨-, ⟨-, ⟨hk, rfl⟩, rfl⟩, hrest⟩
      obtain ⟨hserved, hrest⟩ := splitLoop_eq_ok_iff.mp hrest
      exact ⟨⟨hk, hserved⟩, _, ⟨_, ⟨rfl, rfl⟩, rfl⟩, hrest⟩
    · rintro ⟨⟨hk, hserved⟩, -, ⟨-, ⟨-, rfl⟩, rfl⟩, hrest⟩
      exact ⟨_, ⟨_, ⟨hk, rfl⟩, rfl⟩, splitLoop_eq_ok_iff.mpr ⟨hserved, hrest⟩⟩

theorem split_eq_ok_iff {secret : Bytes} {t n : Int} {rnd : Rand} {shares : List Share} :
    split secret t n rnd = .ok shares ↔
      (secret ≠ [] ∧ 2 ≤ t ∧ t ≤ n ∧ n ≤ 255) ∧ (∀ i < secret.length, rnd.fails i = none)
        ∧ shares = (range n.toNat).map fun i =>
            shareOf secret (fun b => (range (t.toNat - 1)).map (rnd.byte b))
              (UInt8.ofNat (i + 1)) := by
  have hpar : (¬secret.length = 0 ∧ ¬(t < 2 ∨ t > n ∨ n > 255))
      ↔ secret ≠ [] ∧ 2 ≤ t ∧ t ≤ n ∧ n ≤ 255 := by
    rw [length_eq_zero_iff]
    exact and_congr_right fun _ => by omega
  have hserved : (∀ i < secret.length, rnd.fails (0 + i) = none)
      ↔ ∀ i < secret.length, rnd.fails i = none := by
    simp only [Nat.zero_add]
  have hof : split secret t n (Rand.of rnd.byte) = .ok shares
      ↔ (secret ≠ [] ∧ 2 ≤ t ∧ t ≤ n ∧ n ≤ 255)
        ∧ splitLoop t.toNat (Rand.of rnd.byte) ((range n.toNat).map fun i =>
            ⟨UInt8.ofNat (i + 1), replicate secret.length 0⟩) 0 secret = .ok shares := by
    rw [split, ite_err_eq_ok, ite_err_eq_ok, ← and_assoc, hpar]
  rw [split, ite_err_eq_ok, ite_err_eq_ok, ← and_assoc, hpar, splitLoop_eq_ok_iff, hserved]
  refine and_congr_right fun h => and_congr_right fun _ => ?_
  obtain ⟨hne, ht, htn, hn⟩ := h
  rw [split_eq_ok hne ht htn hn, Res.ok.injEq] at hof
  exact (hof.trans (and_iff_right ⟨hne, ht, htn, hn⟩)).symm.trans eq_comm

end TptIdentity.Recovery
