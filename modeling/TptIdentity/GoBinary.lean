import Mathlib.Tactic.Ring
import TptIdentity.GoBasic

/-!
# Fixed-size arrays and big-endian integers

The `[32]byte` arrays that keys are kept in, and big-endian integers. `beNat` and `beBytes` are
inverse to each other on strings of a known length.
-/

namespace Go

abbrev Array32 := {b : Bytes // b.length = 32}

theorem length_zero32 : (List.replicate 32 (0 : UInt8)).length = 32 := rfl

/-- The zero value. -/
instance : Inhabited Array32 := ⟨⟨List.replicate 32 0, length_zero32⟩⟩

def Array32.ofBytes (b : Bytes) : Option Array32 :=
  if h : b.length = 32 then some ⟨b, h⟩ else none

@[simp] theorem Array32.ofBytes_val (a : Array32) : Array32.ofBytes a.val = some a := by
  rw [Array32.ofBytes, dif_pos a.property]

theorem Array32.ofBytes_eq_some {b : Bytes} {a : Array32} (h : Array32.ofBytes b = some a) :
    b = a.val := by
  unfold Array32.ofBytes at h
  split at h
  · exact congrArg Subtype.val (Option.some.inj h)
  · cases h

def Rand.read32 (r : Rand) (i : Nat) : Res Array32 :=
  match r.fails i with
  | some e => .err e
  | none => .ok ⟨(List.range 32).map (r.byte i), by simp⟩

/-! ## Big-endian integers -/

def beNat : Bytes → Nat
  | [] => 0
  | c :: b => c.toNat * 256 ^ b.length + beNat b

def beBytes : Nat → Nat → Bytes
  | 0, _ => []
  | w + 1, n => UInt8.ofNat (n / 256 ^ w) :: beBytes w n

@[simp] theorem length_beBytes (w n : Nat) : (beBytes w n).length = w := by
  induction w with
  | zero => rfl
  | succ w ih => simp [beBytes, ih]

theorem beNat_lt (b : Bytes) : beNat b < 256 ^ b.length := by
  induction b with
  | nil => simp [beNat]
  | cons c b ih =>
    have hc := c.toNat_lt
    have hmul : c.toNat * 256 ^ b.length ≤ 255 * 256 ^ b.length :=
      Nat.mul_le_mul_right _ (by omega)
    rw [beNat, List.length_cons, Nat.pow_succ]
    omega

theorem beBytes_add_mul (w n k : Nat) : beBytes w (n + k * 256 ^ w) = beBytes w n := by
  induction w generalizing k with
  | zero => rfl
  | succ w ih =>
    have hpow : k * 256 ^ (w + 1) = (k * 256) * 256 ^ w := by ring
    have hdiv : (n + k * 256 * 256 ^ w) / 256 ^ w = n / 256 ^ w + k * 256 :=
      Nat.add_mul_div_right _ _ (Nat.pow_pos (by decide))
    have hbyte : UInt8.ofNat (n / 256 ^ w + k * 256) = UInt8.ofNat (n / 256 ^ w) := by
      apply UInt8.toNat_inj.mp
      simp only [UInt8.toNat_ofNat']
      omega
    rw [beBytes, beBytes, hpow, ih, hdiv, hbyte]

theorem beBytes_beNat (b : Bytes) : beBytes b.length (beNat b) = b := by
  induction b with
  | nil => rfl
  | cons c b ih =>
    have hlt := beNat_lt b
    have hdiv : (c.toNat * 256 ^ b.length + beNat b) / 256 ^ b.length = c.toNat := by
      rw [Nat.add_comm, Nat.add_mul_div_right _ _ (Nat.pow_pos (by decide)), Nat.div_eq_of_lt hlt,
        Nat.zero_add]
    rw [List.length_cons, beBytes, beNat, hdiv, Nat.add_comm, beBytes_add_mul, ih,
      UInt8.ofNat_toNat]

theorem beNat_beBytes (w n : Nat) : beNat (beBytes w n) = n % 256 ^ w := by
  induction w with
  | zero => simp [beBytes, beNat, Nat.mod_one]
  | succ w ih =>
    have hmod : n % 256 ^ (w + 1) = n / 256 ^ w % 256 * 256 ^ w + n % 256 ^ w := by
      rw [Nat.pow_succ, Nat.mod_mul, Nat.mul_comm, Nat.add_comm]
    rw [beBytes, beNat, length_beBytes, ih, hmod, UInt8.toNat_ofNat']

def uint64 (b : Bytes) : UInt64 := UInt64.ofNat (beNat (b.take 8))

def putUint64 (x : UInt64) : Bytes := beBytes 8 x.toNat

def uint32Bytes (n : Nat) : Bytes := beBytes 4 (n % 2 ^ 32)

@[simp] theorem length_putUint64 (x : UInt64) : (putUint64 x).length = 8 := length_beBytes 8 _

@[simp] theorem length_uint32Bytes (n : Nat) : (uint32Bytes n).length = 4 := length_beBytes 4 _

theorem uint64_putUint64 (x : UInt64) : uint64 (putUint64 x) = x := by
  have hlen : (putUint64 x).take 8 = putUint64 x := List.take_of_length_le (by simp)
  have hlt : x.toNat < 256 ^ 8 := x.toNat_lt
  rw [uint64, hlen, putUint64, beNat_beBytes, Nat.mod_eq_of_lt hlt, UInt64.ofNat_toNat]

theorem putUint64_uint64 {b : Bytes} (h : b.length = 8) : putUint64 (uint64 b) = b := by
  have hlt : beNat b < 2 ^ 64 := (beNat_lt b).trans_eq (by simp [h])
  rw [uint64, List.take_of_length_le (by omega), putUint64, UInt64.toNat_ofNat',
    Nat.mod_eq_of_lt hlt, ← h, beBytes_beNat]

end Go
