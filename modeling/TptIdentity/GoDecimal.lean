import Mathlib.Data.Nat.Digits.Lemmas
import Mathlib.Tactic.Ring
import TptIdentity.GoBasic

/-!
# Decimal notation

`strconv.Itoa`, `strconv.Atoi` and runs of ASCII digits. `natVal` is only meaningful on digits
(`IsDigits`).
-/

namespace Go

open List

def decDigit (d : Nat) : UInt8 := UInt8.ofNat (48 + d)

def isDigit (b : UInt8) : Bool := 48 ≤ b.toNat && b.toNat ≤ 57

def IsDigits (s : Bytes) : Prop := ∀ b ∈ s, isDigit b = true

def natVal (s : Bytes) : Nat := s.foldl (fun acc b => acc * 10 + (b.toNat - 48)) 0

def utoa (n : Nat) : Bytes :=
  if n = 0 then [48] else (Nat.digits 10 n).reverse.map decDigit

def itoa (n : Int) : Bytes :=
  if n < 0 then 45 :: utoa n.natAbs else utoa n.natAbs

/-- `strconv.Atoi(s)` on a 64-bit platform. -/
def atoi (s : Bytes) : Option Int :=
  let (neg, digits) := match s with
    | 43 :: t => (false, t)
    | 45 :: t => (true, t)
    | t => (false, t)
  let n : Int := if neg then -(natVal digits : Int) else natVal digits
  if digits ≠ [] ∧ digits.all isDigit ∧ -2 ^ 63 ≤ n ∧ n < 2 ^ 63 then some n else none

/-! ## Digits -/

theorem decDigit_toNat {d : Nat} (h : d < 10) : (decDigit d).toNat = 48 + d := by
  simp only [decDigit, UInt8.toNat_ofNat']
  omega

theorem isDigit_decDigit {d : Nat} (h : d < 10) : isDigit (decDigit d) := by
  simp only [isDigit, decDigit_toNat h, Bool.and_eq_true, decide_eq_true_eq]
  omega

theorem IsDigits.append {s t : Bytes} (hs : IsDigits s) (ht : IsDigits t) : IsDigits (s ++ t) := by
  intro b hb
  rcases List.mem_append.mp hb with h | h
  · exact hs b h
  · exact ht b h

variable (n : Nat)

theorem isDigits_replicate_zero : IsDigits (List.replicate n 48) := by
  intro b hb
  rw [eq_of_mem_replicate hb]
  rfl

/-! ## The value of a run of digits -/

theorem foldl_natVal (s : Bytes) : ∀ acc : Nat, s.foldl (fun acc b => acc * 10 + (b.toNat - 48)) acc
      = acc * 10 ^ s.length + natVal s := by
  induction s with
  | nil => intro acc; simp [natVal]
  | cons b s ih =>
    intro acc
    rw [natVal, foldl_cons, foldl_cons, ih, ih, length_cons, pow_succ]
    ring

theorem natVal_append (s t : Bytes) : natVal (s ++ t) = natVal s * 10 ^ t.length + natVal t := by
  rw [natVal, foldl_append, foldl_natVal]
  rfl

theorem natVal_cons (b : UInt8) (s : Bytes) :
    natVal (b :: s) = (b.toNat - 48) * 10 ^ s.length + natVal s := by
  have h := natVal_append [b] s
  simpa [natVal] using h

theorem natVal_replicate_zero : natVal (List.replicate n 48) = 0 := by
  induction n with
  | zero => rfl
  | succ n ih => rw [replicate_succ, natVal_cons, ih]; simp

theorem natVal_map_decDigit : ∀ {l : List Nat}, (∀ d ∈ l, d < 10) →
    natVal (l.reverse.map decDigit) = Nat.ofDigits 10 l
  | [], _ => rfl
  | d :: l, h => by
    have hd : d < 10 := h d (mem_cons_self ..)
    have ih := natVal_map_decDigit (fun e he => h e (mem_cons_of_mem _ he))
    rw [reverse_cons, map_append, natVal_append, ih, Nat.ofDigits_cons]
    simp only [map_cons, map_nil, length_cons, length_nil]
    have hval : natVal [decDigit d] = d := by
      rw [natVal_cons, decDigit_toNat hd]
      simp [natVal]
    rw [hval]
    ring

@[simp] theorem natVal_utoa : natVal (utoa n) = n := by
  unfold utoa
  split
  · next h => rw [h]; rfl
  · rw [natVal_map_decDigit (fun d hd => Nat.digits_lt_base (by norm_num) hd), Nat.ofDigits_digits]

theorem isDigits_utoa : IsDigits (utoa n) := by
  intro b hb
  unfold utoa at hb
  split at hb
  · rw [List.mem_singleton.mp hb]; rfl
  · obtain ⟨d, hd, rfl⟩ := List.mem_map.mp hb
    exact isDigit_decDigit (Nat.digits_lt_base (by norm_num) (List.mem_reverse.mp hd))

theorem utoa_ne_nil : utoa n ≠ [] := by
  unfold utoa
  split
  · simp
  · next h => simpa using Nat.digits_ne_nil_iff_ne_zero.mpr h

theorem length_utoa_le {width n : Nat} (hpos : 0 < width) (h : n < 10 ^ width) :
    (utoa n).length ≤ width := by
  unfold utoa
  split
  · exact hpos
  · rw [length_map, length_reverse]
    exact (Nat.digits_length_le_iff (by omega) n).mpr h

theorem length_utoa {width n : Nat} (hpos : 0 < width) (hge : 10 ^ (width - 1) ≤ n)
    (hlt : n < 10 ^ width) : (utoa n).length = width := by
  have hle := length_utoa_le hpos hlt
  have hn : n ≠ 0 := (lt_of_lt_of_le (by positivity) hge).ne'
  have hlen : width - 1 < (utoa n).length := by
    rw [utoa, if_neg hn, length_map, length_reverse]
    exact (Nat.lt_digits_length_iff (by omega) n).mpr hge
  omega

theorem utoa_head {n : Nat} (hn : n ≠ 0) : ∃ b s, utoa n = b :: s ∧ b ≠ 48 ∧ isDigit b := by
  have hdig : Nat.digits 10 n ≠ [] := Nat.digits_ne_nil_iff_ne_zero.mpr hn
  have hne : (Nat.digits 10 n).reverse ≠ [] := by simpa using hdig
  obtain ⟨d, l, hdl⟩ := exists_cons_of_ne_nil hne
  have hlast : (Nat.digits 10 n).getLast hdig = d := by
    rw [← head_reverse hne]
    simp [hdl]
  have hd0 : d ≠ 0 := hlast ▸ Nat.getLast_digit_ne_zero 10 hn
  have hd : d < 10 := Nat.digits_lt_base (by norm_num)
    (List.mem_reverse.mp (hdl ▸ mem_cons_self ..))
  refine ⟨decDigit d, l.map decDigit, by rw [utoa, if_neg hn, hdl]; rfl, ?_, isDigit_decDigit hd⟩
  intro h
  have := congrArg UInt8.toNat h
  rw [decDigit_toNat hd] at this
  simp at this
  omega

/-! ## Signed numbers -/

theorem atoi_eq_some {s : Bytes} {n : Int} :
    atoi s = some n ↔ ∃ digits, digits ≠ [] ∧ IsDigits digits ∧ -2 ^ 63 ≤ n ∧ n < 2 ^ 63
      ∧ (s = 43 :: digits ∧ n = natVal digits ∨ s = 45 :: digits ∧ n = -natVal digits
        ∨ s = digits ∧ n = natVal digits) := by
  have hread : ∀ (digits : Bytes) (m : Int), (if digits ≠ [] ∧ digits.all isDigit
      ∧ -2 ^ 63 ≤ m ∧ m < 2 ^ 63 then some m else none) = some n
        ↔ digits ≠ [] ∧ IsDigits digits ∧ -2 ^ 63 ≤ n ∧ n < 2 ^ 63 ∧ n = m := by
    intro digits m
    rw [Option.ite_none_right_eq_some, all_eq_true, Option.some.injEq]
    constructor
    · rintro ⟨⟨hne, hdigits, hlo, hhi⟩, rfl⟩
      exact ⟨hne, hdigits, hlo, hhi, rfl⟩
    · rintro ⟨hne, hdigits, hlo, hhi, rfl⟩
      exact ⟨⟨hne, hdigits, hlo, hhi⟩, rfl⟩
  constructor
  · intro h
    unfold atoi at h
    split at h
    next neg digits heq =>
      obtain ⟨hne, hdigits, hlo, hhi, hn⟩ := (hread _ _).mp h
      refine ⟨digits, hne, hdigits, hlo, hhi, ?_⟩
      split at heq
      · cases heq
        exact Or.inl ⟨rfl, hn⟩
      · cases heq
        exact Or.inr (Or.inl ⟨rfl, hn⟩)
      · cases heq
        exact Or.inr (Or.inr ⟨rfl, hn⟩)
  · rintro ⟨digits, hne, hdigits, hlo, hhi, ⟨rfl, hn⟩ | ⟨rfl, hn⟩ | ⟨rfl, hn⟩⟩
    · exact (hread digits _).mpr ⟨hne, hdigits, hlo, hhi, hn⟩
    · exact (hread digits _).mpr ⟨hne, hdigits, hlo, hhi, hn⟩
    · unfold atoi
      split
      next neg digits' heq =>
        split at heq
        · exact absurd (hdigits 43 mem_cons_self) (by decide)
        · exact absurd (hdigits 45 mem_cons_self) (by decide)
        · cases heq
          exact (hread s _).mpr ⟨hne, hdigits, hlo, hhi, hn⟩

theorem atoi_utoa {n : Nat} (h : n < 2 ^ 63) : atoi (utoa n) = some n := by
  refine atoi_eq_some.mpr ⟨utoa n, utoa_ne_nil n, isDigits_utoa n, by omega, by omega, ?_⟩
  exact Or.inr (Or.inr ⟨rfl, by rw [natVal_utoa]⟩)

end Go
