import Mathlib.Data.Set.Insert
import TptIdentity.GoBasic

/-!
# Bit strings kept in bytes

Bit `i` of a byte string is bit `i % 8` of byte `i / 8`. A string stands for the set of its bits
(`Bits.members`).
-/

namespace Go

namespace Bits

def mask (i : Nat) : UInt8 := 1 <<< UInt8.ofNat (i % 8)

def test (b : Bytes) (i : Nat) : Bool := (b.getD (i / 8) 0 &&& mask i) != 0

def set (b : Bytes) (i : Nat) : Bytes := b.modify (i / 8) (· ||| mask i)

def clear (b : Bytes) (i : Nat) : Bytes := b.modify (i / 8) (· &&& ~~~ mask i)

def members (b : Bytes) : Set Nat := {i | test b i = true}

variable {b : Bytes} {i : Nat}

theorem mem_members : i ∈ members b ↔ test b i := Iff.rfl

@[simp] theorem length_set (b : Bytes) (i : Nat) : (set b i).length = b.length := by
  simp [set]

@[simp] theorem length_clear (b : Bytes) (i : Nat) : (clear b i).length = b.length := by
  simp [clear]

/-! ## One byte -/

theorem toBitVec_mask (i : Nat) : (mask i).toBitVec = BitVec.twoPow 8 (i % 8) := by
  have hall : ∀ k < 8, ((1 : UInt8) <<< UInt8.ofNat k).toBitVec = BitVec.twoPow 8 k := by decide
  exact hall _ (Nat.mod_lt _ (by decide))

theorem and_mask_bne_zero (c : UInt8) (i : Nat) :
    ((c &&& mask i) != 0) = c.toBitVec.getLsbD (i % 8) := by
  have hpow : BitVec.twoPow 8 (i % 8) ≠ 0#8 := by
    have hall : ∀ k < 8, BitVec.twoPow 8 k ≠ 0#8 := by decide
    exact hall _ (Nat.mod_lt _ (by decide))
  rw [Bool.eq_iff_iff, bne_iff_ne, ne_eq, ← UInt8.toBitVec_inj, UInt8.toBitVec_and,
    toBitVec_mask, BitVec.and_twoPow]
  cases h : c.toBitVec.getLsbD (i % 8) <;> simp [hpow]

theorem getLsbD_mask {j : Nat} : (mask i).toBitVec.getLsbD (j % 8) = decide (i % 8 = j % 8) := by
  rw [toBitVec_mask, BitVec.getLsbD_twoPow]
  simp [Nat.mod_lt]

/-! ## The string -/

theorem test_eq (b : Bytes) (i : Nat) : test b i = (b.getD (i / 8) 0).toBitVec.getLsbD (i % 8) :=
  and_mask_bne_zero _ _

theorem getD_modify (b : Bytes) (f : UInt8 → UInt8) (h : i < b.length) (j : Nat) :
    (b.modify i f).getD j 0 = if i = j then f (b.getD j 0) else b.getD j 0 := by
  simp only [List.getD_eq_getElem?_getD, List.getElem?_modify]
  split
  · next hij =>
    subst hij
    simp [h]
  · simp

theorem test_set (h : i < 8 * b.length) (j : Nat) :
    test (set b i) j = (decide (i = j) || test b j) := by
  rw [test_eq, test_eq, set, getD_modify b _ (by omega)]
  split
  · next hdiv =>
    have hmod : i % 8 = j % 8 ↔ i = j := by omega
    rw [UInt8.toBitVec_or, BitVec.getLsbD_or, getLsbD_mask, Bool.or_comm]
    simp [hmod]
  · next hdiv =>
    have hne : i ≠ j := fun hij => hdiv (by rw [hij])
    simp [hne]

theorem test_clear (h : i < 8 * b.length) (j : Nat) :
    test (clear b i) j = (!decide (i = j) && test b j) := by
  rw [test_eq, test_eq, clear, getD_modify b _ (by omega)]
  split
  · next hdiv =>
    have hmod : i % 8 = j % 8 ↔ i = j := by omega
    rw [UInt8.toBitVec_and, BitVec.getLsbD_and, UInt8.toBitVec_not, BitVec.getLsbD_not,
      getLsbD_mask, Bool.and_comm]
    simp [Nat.mod_lt, hmod]
  · next hdiv =>
    have hne : i ≠ j := fun hij => hdiv (by rw [hij])
    simp [hne]

/-! ## The set -/

theorem members_replicate (n : Nat) : members (List.replicate n 0) = ∅ := by
  ext i
  rw [mem_members, test_eq, List.getD_eq_getElem?_getD, List.getElem?_replicate]
  split <;> simp

theorem members_set (h : i < 8 * b.length) : members (set b i) = insert i (members b) := by
  ext j
  rw [mem_members, test_set h, Set.mem_insert_iff, mem_members, Bool.or_eq_true, decide_eq_true_eq,
    eq_comm]

theorem members_clear (h : i < 8 * b.length) : members (clear b i) = members b \ {i} := by
  ext j
  rw [mem_members, test_clear h, Set.mem_sdiff, Set.mem_singleton_iff, mem_members,
    Bool.and_eq_true, Bool.not_eq_true', decide_eq_false_iff_not, and_comm]
  exact and_congr Iff.rfl (not_congr eq_comm)

end Bits

end Go
