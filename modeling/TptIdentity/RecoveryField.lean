import Mathlib.Data.FinEnum
import Mathlib.Data.Fintype.Card
import Mathlib.Algebra.Field.Basic
import Mathlib.Tactic.Ring
import TptIdentity.RecoveryModel

/-!
# The byte operations of the recovery code form a field

`gfMul` is bilinear over xor, so its laws need checking on single bits only (`xor_ext`), and so
does `a ^ 256 = a`; hence `a ^ 255` is `0` or `1`. `GF256` is `UInt8` with these operations, as
a Mathlib `Field`.
-/

namespace TptIdentity.Recovery

open List

/-! ## Multiplication is bilinear -/

def xtime (a : UInt8) : UInt8 :=
  if a &&& 0x80 ≠ 0 then a <<< 1 ^^^ 0x1b else a <<< 1

theorem gfMulLoop_succ (i : Nat) (p a b : UInt8) :
    gfMulLoop (i + 1) p a b
      = gfMulLoop i (if b &&& 1 ≠ 0 then p ^^^ a else p) (xtime a) (b >>> 1) := rfl

variable (a : UInt8)

variable {m : UInt8} (b c : UInt8)

theorem and_xor_right : (a ^^^ b) &&& c = (a &&& c) ^^^ (b &&& c) := by
  apply UInt8.eq_of_toBitVec_eq
  ext i
  simp only [UInt8.toBitVec_and, UInt8.toBitVec_xor, BitVec.getElem_and, BitVec.getElem_xor]
  cases (a.toBitVec)[i] <;> cases (b.toBitVec)[i] <;> cases (c.toBitVec)[i] <;> rfl

theorem and_xor_ne_zero (hm : ∀ x : UInt8, x &&& m = 0 ∨ x &&& m = m) :
    ((a ^^^ b) &&& m ≠ 0) ↔ ((a &&& m ≠ 0) ↔ ¬(b &&& m ≠ 0)) := by
  rw [and_xor_right]
  rcases hm a with ha | ha <;> rcases hm b with hb | hb <;> rw [ha, hb] <;> simp

def singleBits : List UInt8 := [1, 2, 4, 8, 16, 32, 64, 128]

theorem and_singleBit (hm : m ∈ singleBits) (a : UInt8) : a &&& m = 0 ∨ a &&& m = m := by
  have hpow : ∀ m ∈ singleBits, ∃ i ∈ List.range 8, m.toBitVec = BitVec.twoPow 8 i := by
    decide +kernel
  obtain ⟨i, -, hi⟩ := hpow m hm
  have hand : (a &&& m).toBitVec = if a.toBitVec.getLsbD i then m.toBitVec else 0#8 := by
    rw [UInt8.toBitVec_and, hi, BitVec.and_twoPow]
  split at hand
  · exact .inr (UInt8.eq_of_toBitVec_eq hand)
  · exact .inl (UInt8.eq_of_toBitVec_eq hand)

theorem xor_xor_xor_comm (d : UInt8) : (a ^^^ b) ^^^ (c ^^^ d) = (a ^^^ c) ^^^ (b ^^^ d) := by
  rw [UInt8.xor_assoc, UInt8.xor_assoc, ← UInt8.xor_assoc b c d, UInt8.xor_comm b c,
    UInt8.xor_assoc c b d]

theorem xtime_xor : xtime (a ^^^ b) = xtime a ^^^ xtime b := by
  have h := and_xor_ne_zero a b (and_singleBit (m := 0x80) (by decide))
  unfold xtime
  by_cases ha : a &&& 0x80 ≠ 0 <;> by_cases hb : b &&& 0x80 ≠ 0
  · rw [if_pos ha, if_pos hb, if_neg (by tauto), UInt8.shiftLeft_xor, xor_xor_xor_comm,
      UInt8.xor_self, UInt8.xor_zero]
  · rw [if_pos ha, if_neg hb, if_pos (by tauto), UInt8.shiftLeft_xor, UInt8.xor_assoc,
      UInt8.xor_assoc, UInt8.xor_comm (b <<< 1)]
  · rw [if_neg ha, if_pos hb, if_pos (by tauto), UInt8.shiftLeft_xor, UInt8.xor_assoc]
  · rw [if_neg ha, if_neg hb, if_neg (by tauto), UInt8.shiftLeft_xor]

theorem gfMulLoop_xor_left : ∀ (i : Nat) (p p' a a' b : UInt8),
    gfMulLoop i (p ^^^ p') (a ^^^ a') b = gfMulLoop i p a b ^^^ gfMulLoop i p' a' b
  | 0, _, _, _, _, _ => rfl
  | i + 1, p, p', a, a', b => by
    simp only [gfMulLoop_succ, xtime_xor]
    by_cases hb : b &&& 1 ≠ 0
    · rw [if_pos hb, if_pos hb, if_pos hb, xor_xor_xor_comm, gfMulLoop_xor_left i]
    · rw [if_neg hb, if_neg hb, if_neg hb, gfMulLoop_xor_left i]

theorem gfMulLoop_xor_right : ∀ (i : Nat) (p p' a b b' : UInt8),
    gfMulLoop i (p ^^^ p') a (b ^^^ b') = gfMulLoop i p a b ^^^ gfMulLoop i p' a b'
  | 0, _, _, _, _, _ => rfl
  | i + 1, p, p', a, b, b' => by
    have h := and_xor_ne_zero b b' (and_singleBit (m := 1) (by decide))
    simp only [gfMulLoop_succ, UInt8.shiftRight_xor]
    rw [← gfMulLoop_xor_right i]
    congr 1
    by_cases hb : b &&& 1 ≠ 0 <;> by_cases hb' : b' &&& 1 ≠ 0
    · rw [if_pos hb, if_pos hb', if_neg (by tauto), xor_xor_xor_comm, UInt8.xor_self,
        UInt8.xor_zero]
    · rw [if_pos hb, if_neg hb', if_pos (by tauto), UInt8.xor_assoc, UInt8.xor_assoc,
        UInt8.xor_comm p']
    · rw [if_neg hb, if_pos hb', if_pos (by tauto), UInt8.xor_assoc]
    · rw [if_neg hb, if_neg hb', if_neg (by tauto)]

theorem gfMul_xor_left (a' b : UInt8) : gfMul (a ^^^ a') b = gfMul a b ^^^ gfMul a' b :=
  gfMulLoop_xor_left 8 0 0 a a' b

theorem gfMul_xor_right (b' : UInt8) : gfMul a (b ^^^ b') = gfMul a b ^^^ gfMul a b' :=
  gfMulLoop_xor_right 8 0 0 a b b'

/-! ## Additive maps agree when they agree on single bits -/

theorem xor_singleBits : singleBits.foldr (fun m r => (a &&& m) ^^^ r) 0 = a := by
  have hfold : ∀ l : List UInt8, l.foldr (fun m r => (a &&& m) ^^^ r) 0
      = l.foldr (fun m r => m ^^^ r) 0 &&& a := by
    intro l
    induction l with
    | nil => exact UInt8.zero_and.symm
    | cons m l ih => rw [foldr_cons, foldr_cons, ih, and_xor_right, UInt8.and_comm a]
  have hall : singleBits.foldr (fun m r => m ^^^ r) 0 = -1 := by decide
  rw [hfold, hall, UInt8.neg_one_and]

theorem xor_ext {f g : UInt8 → UInt8} (hf : ∀ a b, f (a ^^^ b) = f a ^^^ f b)
    (hg : ∀ a b, g (a ^^^ b) = g a ^^^ g b) (h : ∀ m ∈ singleBits, f m = g m)
    (a : UInt8) : f a = g a := by
  have hf0 : f 0 = 0 := by simpa using hf 0 0
  have hg0 : g 0 = 0 := by simpa using hg 0 0
  have hmask : ∀ m ∈ singleBits, f (a &&& m) = g (a &&& m) := by
    intro m hm
    rcases and_singleBit hm a with h0 | h1
    · rw [h0, hf0, hg0]
    · rw [h1, h m hm]
  have hfold : ∀ l : List UInt8, (∀ m ∈ l, f (a &&& m) = g (a &&& m)) →
      f (l.foldr (fun m r => (a &&& m) ^^^ r) 0)
        = g (l.foldr (fun m r => (a &&& m) ^^^ r) 0) := by
    intro l
    induction l with
    | nil => intro _; rw [foldr_nil, hf0, hg0]
    | cons m l ih =>
      intro hl
      rw [foldr_cons, hf, hg, hl m (mem_cons_self ..), ih fun k hk => hl k (mem_cons_of_mem _ hk)]
  simpa only [xor_singleBits] using hfold singleBits hmask

/-! ## The ring laws -/

theorem gfMul_comm : gfMul a b = gfMul b a := by
  have hbits : ∀ m ∈ singleBits, ∀ k ∈ singleBits, gfMul m k = gfMul k m := by decide +kernel
  -- additive in `b` for a single-bit `a`, then additive in `a`
  have hleft : ∀ m ∈ singleBits, ∀ b, gfMul m b = gfMul b m := fun m hm =>
    xor_ext (fun _ _ => gfMul_xor_right ..) (fun _ _ => gfMul_xor_left ..) (hbits m hm)
  exact xor_ext (f := fun a => gfMul a b) (g := fun a => gfMul b a)
    (fun _ _ => gfMul_xor_left ..) (fun _ _ => gfMul_xor_right ..)
    (fun m hm => hleft m hm b) a

theorem gfMul_one : gfMul a 1 = a :=
  xor_ext (f := fun a => gfMul a 1) (g := fun a => a) (fun _ _ => gfMul_xor_left ..)
    (fun _ _ => rfl) (by decide +kernel) a

theorem one_gfMul : gfMul 1 a = a := (gfMul_comm 1 a).trans (gfMul_one a)

theorem gfMulLoop_xtime : ∀ (i : Nat) (p a b : UInt8),
    gfMulLoop i (xtime p) (xtime a) b = xtime (gfMulLoop i p a b)
  | 0, _, _, _ => rfl
  | i + 1, p, a, b => by
    simp only [gfMulLoop_succ]
    by_cases hb : b &&& 1 ≠ 0
    · rw [if_pos hb, if_pos hb, ← xtime_xor, gfMulLoop_xtime i]
    · rw [if_neg hb, if_neg hb, gfMulLoop_xtime i]

theorem gfMul_xtime : gfMul (xtime a) b = xtime (gfMul a b) :=
  gfMulLoop_xtime 8 0 a b

theorem exists_xtime_of_singleBit (hm : m ∈ singleBits) : ∃ i, m = xtime^[i] 1 := by
  have hpow : ∀ m ∈ singleBits, ∃ i ∈ List.range 8, m = xtime^[i] 1 := by
    decide +kernel
  obtain ⟨i, -, hi⟩ := hpow m hm
  exact ⟨i, hi⟩

theorem gfMul_assoc : gfMul (gfMul a b) c = gfMul a (gfMul b c) := by
  have hpow : ∀ i, gfMul (gfMul (xtime^[i] 1) b) c = gfMul (xtime^[i] 1) (gfMul b c) := by
    intro i
    induction i with
    | zero => rw [Function.iterate_zero_apply, one_gfMul, one_gfMul]
    | succ i ih =>
      rw [Function.iterate_succ_apply', gfMul_xtime, gfMul_xtime, gfMul_xtime, ih]
  refine xor_ext (f := fun a => gfMul (gfMul a b) c) (g := fun a => gfMul a (gfMul b c))
    (fun _ _ => by simp only [gfMul_xor_left]) (fun _ _ => by simp only [gfMul_xor_left])
    (fun m hm => ?_) a
  obtain ⟨i, rfl⟩ := exists_xtime_of_singleBit hm
  exact hpow i

theorem gfMul_zero : gfMul a 0 = 0 := by
  simpa using gfMul_xor_right a 0 0

@[ext] structure GF256 where
  byte : UInt8
deriving DecidableEq

namespace GF256

def equivByte : UInt8 ≃ GF256 := ⟨mk, byte, fun _ => rfl, fun _ => rfl⟩

instance : Fintype GF256 := Fintype.ofEquiv UInt8 equivByte

instance : Zero GF256 := ⟨⟨0⟩⟩

instance : One GF256 := ⟨⟨1⟩⟩

instance : Add GF256 := ⟨fun a b => ⟨a.byte ^^^ b.byte⟩⟩

instance : Neg GF256 := ⟨fun a => a⟩

instance : Mul GF256 := ⟨fun a b => ⟨gfMul a.byte b.byte⟩⟩

theorem mk_xor (a b : UInt8) : (⟨a ^^^ b⟩ : GF256) = ⟨a⟩ + ⟨b⟩ := rfl

theorem mk_gfMul (a b : UInt8) : (⟨gfMul a b⟩ : GF256) = ⟨a⟩ * ⟨b⟩ := rfl

instance : CommRing GF256 where
  add_assoc _ _ _ := GF256.ext (UInt8.xor_assoc ..)
  zero_add _ := GF256.ext UInt8.zero_xor
  add_zero _ := GF256.ext UInt8.xor_zero
  add_comm _ _ := GF256.ext (UInt8.xor_comm ..)
  neg_add_cancel _ := GF256.ext UInt8.xor_self
  left_distrib _ _ _ := GF256.ext (gfMul_xor_right ..)
  right_distrib _ _ _ := GF256.ext (gfMul_xor_left ..)
  zero_mul a := GF256.ext ((gfMul_comm 0 a.byte).trans (gfMul_zero a.byte))
  mul_zero a := GF256.ext (gfMul_zero a.byte)
  mul_assoc _ _ _ := GF256.ext (gfMul_assoc ..)
  one_mul a := GF256.ext (one_gfMul a.byte)
  mul_one a := GF256.ext (gfMul_one a.byte)
  mul_comm _ _ := GF256.ext (gfMul_comm ..)
  nsmul := nsmulRec
  zsmul := zsmulRec

theorem add_self (a : GF256) : a + a = 0 := GF256.ext UInt8.xor_self

theorem sub_eq_add (a b : GF256) : a - b = a + b := sub_eq_add_neg a b

/-! ## Inverses -/

theorem sq_add (a b : GF256) : (a + b) ^ 2 = a ^ 2 + b ^ 2 := by
  have h : (a + b) ^ 2 = a ^ 2 + b ^ 2 + (a * b + a * b) := by ring
  rw [h, add_self, add_zero]

theorem pow_two_pow_add (n : Nat) (a b : GF256) : (a + b) ^ 2 ^ n = a ^ 2 ^ n + b ^ 2 ^ n := by
  induction n with
  | zero => simp
  | succ n ih => rw [pow_succ, pow_mul, pow_mul, pow_mul, ih, sq_add]

def squarings : Nat → UInt8 → UInt8
  | 0, a => a
  | n + 1, a => squarings n (gfMul a a)

theorem mk_squarings : ∀ (n : Nat) (a : UInt8), (⟨squarings n a⟩ : GF256) = ⟨a⟩ ^ 2 ^ n
  | 0, a => (pow_one _).symm
  | n + 1, a => by
    rw [squarings, mk_squarings n, mk_gfMul, ← sq, ← pow_mul, pow_succ']

theorem pow_256 (a : GF256) : a ^ 256 = a := by
  have hbits : ∀ m ∈ singleBits, squarings 8 m = m := by decide +kernel
  have hadd : ∀ a b : UInt8, squarings 8 (a ^^^ b) = squarings 8 a ^^^ squarings 8 b := by
    intro a b
    have h := pow_two_pow_add 8 ⟨a⟩ ⟨b⟩
    rw [← mk_xor, ← mk_squarings, ← mk_squarings, ← mk_squarings] at h
    exact congrArg byte h
  have h := xor_ext hadd (fun _ _ => rfl) hbits a.byte
  have hmk := mk_squarings 8 a.byte
  rw [h] at hmk
  exact hmk.symm

theorem eq_zero_or_one_of_idempotent {a : GF256} (h : a * a = a) : a = 0 ∨ a = 1 := by
  have hall : ∀ a : UInt8, gfMul a a = a → a = 0 ∨ a = 1 := by decide +kernel
  rcases hall a.byte (congrArg byte h) with h0 | h1
  · exact Or.inl (GF256.ext h0)
  · exact Or.inr (GF256.ext h1)

theorem pow_255 {a : GF256} (ha : a ≠ 0) : a ^ 255 = 1 := by
  have h256 := pow_256 a
  have hidem : a ^ 255 * a ^ 255 = a ^ 255 := by
    calc a ^ 255 * a ^ 255 = a ^ 256 * a ^ 254 := by ring
      _ = a ^ 255 := by rw [h256]; ring
  rcases eq_zero_or_one_of_idempotent hidem with h | h
  · have : a = 0 := by
      calc a = a ^ 255 * a := by rw [← pow_succ]; exact h256.symm
        _ = 0 := by rw [h, zero_mul]
    exact absurd this ha
  · exact h

theorem and_one_ne_zero (e : UInt8) : e &&& 1 ≠ 0 ↔ e.toNat % 2 = 1 := by
  have hand : (e &&& 1).toNat = e.toNat % 2 := by
    rw [UInt8.toNat_and, UInt8.toNat_one, Nat.and_one_is_mod]
  rw [ne_eq, ← UInt8.toNat_inj, hand, UInt8.toNat_zero]
  omega

theorem mk_gfInvLoop : ∀ (i : Nat) (r a e : UInt8), e.toNat < 2 ^ i →
    (⟨gfInvLoop i r a e⟩ : GF256) = ⟨r⟩ * ⟨a⟩ ^ e.toNat
  | 0, r, a, e, he => by
    have : e.toNat = 0 := by omega
    rw [this, pow_zero, mul_one, gfInvLoop]
  | i + 1, r, a, e, he => by
    rw [gfInvLoop]
    by_cases h0 : e = 0
    · rw [if_pos h0, h0]
      exact (mul_one _).symm
    · rw [if_neg h0]
      have hshift : (e >>> 1).toNat = e.toNat / 2 := by
        simp [UInt8.toNat_shiftRight, Nat.shiftRight_eq_div_pow]
      have hlt : (e >>> 1).toNat < 2 ^ i := by
        omega
      have hmod := Nat.div_add_mod e.toNat 2
      rw [mk_gfInvLoop i _ _ _ hlt, hshift, mk_gfMul, ← sq, ← pow_mul]
      by_cases hodd : e &&& 1 ≠ 0
      · rw [(and_one_ne_zero e).mp hodd] at hmod
        rw [if_pos hodd, mk_gfMul, mul_assoc, ← pow_succ', hmod]
      · have heven : e.toNat % 2 = 0 := by
          have := mt (and_one_ne_zero e).mpr hodd
          omega
        rw [heven, add_zero] at hmod
        rw [if_neg hodd, hmod]

theorem mk_gfInv {a : GF256} (ha : a ≠ 0) : (⟨gfInv a.byte⟩ : GF256) = a ^ 254 := by
  have hb : a.byte ≠ 0 := fun h => ha (GF256.ext h)
  rw [gfInv, if_neg hb, mk_gfInvLoop 8 1 a.byte 254 (by decide)]
  exact one_mul _

instance : Inv GF256 := ⟨fun a => ⟨gfInv a.byte⟩⟩

instance : Field GF256 where
  exists_pair_ne := ⟨0, 1, by decide⟩
  mul_inv_cancel a ha := by
    have h : a⁻¹ = a ^ 254 := mk_gfInv ha
    calc a * a⁻¹ = a * a ^ 254 := by rw [h]
      _ = a ^ 255 := by ring
      _ = 1 := pow_255 ha
  inv_zero := rfl
  nnqsmul := _
  nnqsmul_def := fun _ _ => rfl
  qsmul := _
  qsmul_def := fun _ _ => rfl

theorem mk_inv (a : UInt8) : (⟨gfInv a⟩ : GF256) = (⟨a⟩ : GF256)⁻¹ := rfl

end GF256

end TptIdentity.Recovery
