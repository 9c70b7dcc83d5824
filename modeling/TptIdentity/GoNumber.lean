import Mathlib.Data.Rat.Defs
import TptIdentity.GoDecimal

/-!
# Number literals

`scanNumber` takes the longest literal of the JSON number grammar off a text; `literal` writes
one, which is read back if no byte follows that could continue it (`scanNumber_literal`).
-/

namespace Go

open List

structure Decimal where
  neg : Bool
  coeff : Nat
  exp : Int
deriving DecidableEq, Repr

def Decimal.abs (d : Decimal) : ℚ := d.coeff * 10 ^ d.exp

/-! ## Scanning -/

def scanFrac : Bytes → Option (Bytes × Bytes)
  | [] => some ([], [])
  | c :: s =>
    if c = 46 then
      if (s.span isDigit).1 = [] then none else some (s.span isDigit)
    else some ([], c :: s)

def scanSign : Bytes → Bool × Bytes
  | [] => (false, [])
  | c :: s => if c = 45 then (true, s) else if c = 43 then (false, s) else (false, c :: s)

def scanExp : Bytes → Option (Int × Bytes)
  | [] => some (0, [])
  | c :: s =>
    if c = 101 ∨ c = 69 then
      let (neg, s) := scanSign s
      let (digits, rest) := s.span isDigit
      if digits = [] then none
      else some (if neg then -(natVal digits : Int) else natVal digits, rest)
    else some (0, c :: s)

def scanMinus : Bytes → Bool × Bytes
  | [] => (false, [])
  | c :: s => if c = 45 then (true, s) else (false, c :: s)

def scanNumber (s : Bytes) : Option (Decimal × Bytes) :=
  let (neg, s) := scanMinus s
  let (int, s) := s.span isDigit
  if int = [] ∨ (int.head? = some 48 ∧ int.length ≠ 1) then none
  else do
    let (frac, s) ← scanFrac s
    let (exp, s) ← scanExp s
    return (⟨neg, natVal (int ++ frac), exp - frac.length⟩, s)

/-! ## Writing -/

def expText : Option Int → Bytes
  | none => []
  | some x => 101 :: (if x < 0 then 45 else 43) :: utoa x.natAbs

def fracText (frac : Bytes) : Bytes := if frac = [] then [] else 46 :: frac

def literal (neg : Bool) (int frac : Bytes) (exp : Option Int) : Bytes :=
  (if neg then [45] else []) ++ (int ++ (fracText frac ++ expText exp))

variable {frac int : Bytes} {neg : Bool} {exp : Option Int} (n : Int)

theorem itoa_eq_literal : itoa n = literal (n < 0) (utoa n.natAbs) [] none := by
  by_cases h : n < 0 <;> simp [itoa, literal, fracText, expText, h]

/-! ## Reading back -/

def EndsNumber (s : Bytes) : Prop :=
  ∀ c ∈ s.head?, isDigit c = false ∧ c ≠ 46 ∧ c ≠ 101 ∧ c ≠ 69

@[simp] theorem endsNumber_nil : EndsNumber [] := by simp [EndsNumber]

theorem span_digits : ∀ {ds s : Bytes}, IsDigits ds → (∀ c ∈ s.head?, isDigit c = false) →
    (ds ++ s).span isDigit = (ds, s)
  | [], [], _, _ => rfl
  | [], c :: s, _, hs => by
    have hc := hs c rfl
    simp [List.span, List.span.loop, hc]
  | d :: ds, s, hds, hs => by
    have hd : isDigit d := hds d mem_cons_self
    have ih := @span_digits ds s (fun b hb => hds b (mem_cons_of_mem _ hb)) hs
    rw [span_eq_takeWhile_dropWhile] at ih ⊢
    obtain ⟨h1, h2⟩ := Prod.mk.inj ih
    rw [cons_append, takeWhile_cons, dropWhile_cons, hd]
    simp [h1, h2]

theorem scanMinus_literal (hint : IsDigits int) (hne : int ≠ []) (s : Bytes) :
    scanMinus ((if neg then [45] else []) ++ (int ++ s)) = (neg, int ++ s) := by
  cases neg with
  | true => rfl
  | false =>
    obtain ⟨d, ds, rfl⟩ := exists_cons_of_ne_nil hne
    have hd : d ≠ 45 := by
      rintro rfl
      exact absurd (hint 45 mem_cons_self) (by decide)
    simp [scanMinus, hd]

variable {s : Bytes}

theorem scanFrac_fracText (hfrac : IsDigits frac) (hs : ∀ c ∈ s.head?, isDigit c = false ∧ c ≠ 46) :
    scanFrac (fracText frac ++ s) = some (frac, s) := by
  by_cases h : frac = []
  · subst h
    cases s with
    | nil => rfl
    | cons c s => simp [fracText, scanFrac, (hs c rfl).2]
  · have hspan := span_digits hfrac (s := s) fun c hc => (hs c hc).1
    simp [fracText, h, scanFrac, hspan, -span_eq_takeWhile_dropWhile]

theorem scanExp_expText (hs : EndsNumber s) :
    scanExp (expText exp ++ s) = some (exp.getD 0, s) := by
  cases exp with
  | none =>
    cases s with
    | nil => rfl
    | cons c s =>
      obtain ⟨-, -, h1, h2⟩ := hs c rfl
      simp [expText, scanExp, h1, h2]
  | some x =>
    have hspan := span_digits (isDigits_utoa x.natAbs) (s := s) fun c hc => (hs c hc).1
    by_cases hx : x < 0
    · have habs : |x| = -x := abs_of_neg hx
      simp [expText, scanExp, scanSign, hx, hspan, utoa_ne_nil, habs, -span_eq_takeWhile_dropWhile]
    · have habs : |x| = x := abs_of_nonneg (by omega)
      simp [expText, scanExp, scanSign, hx, hspan, utoa_ne_nil, habs, -span_eq_takeWhile_dropWhile]

theorem head_expText (exp : Option Int) (hs : EndsNumber s) :
    ∀ c ∈ (expText exp ++ s).head?, isDigit c = false ∧ c ≠ 46 := by
  cases exp with
  | none => exact fun c hc => ⟨(hs c hc).1, (hs c hc).2.1⟩
  | some x =>
    intro c hc
    obtain rfl : 101 = c := by simpa [expText] using hc
    decide

theorem head_fracText (frac : Bytes) (hs : ∀ c ∈ s.head?, isDigit c = false ∧ c ≠ 46) :
    ∀ c ∈ (fracText frac ++ s).head?, isDigit c = false := by
  intro c hc
  by_cases h : frac = []
  · subst h
    exact (hs c hc).1
  · obtain rfl : 46 = c := by simpa [fracText, h] using hc
    rfl

theorem scanNumber_literal (hint : IsDigits int) (hne : int ≠ [])
    (hzero : int.head? = some 48 → int.length = 1) (hfrac : IsDigits frac) (hs : EndsNumber s) :
    scanNumber (literal neg int frac exp ++ s)
      = some (⟨neg, natVal (int ++ frac), exp.getD 0 - frac.length⟩, s) := by
  have hhead := head_expText exp hs
  have hspan := span_digits hint (head_fracText frac hhead)
  have hint' : ¬(int = [] ∨ (int.head? = some 48 ∧ int.length ≠ 1)) := by
    rintro (h | ⟨h, hl⟩)
    · exact hne h
    · exact hl (hzero h)
  simp only [scanNumber, literal, append_assoc, scanMinus_literal hint hne, hspan,
    if_neg hint', scanFrac_fracText hfrac hhead, scanExp_expText hs, Option.bind_eq_bind,
    Option.bind_some, Option.pure_def]

theorem scanNumber_itoa (hs : EndsNumber s) :
    scanNumber (itoa n ++ s) = some (⟨n < 0, n.natAbs, 0⟩, s) := by
  rw [itoa_eq_literal, scanNumber_literal (isDigits_utoa _) (utoa_ne_nil _) ?_
    (by simp [IsDigits]) hs]
  · simp
  · intro h
    by_cases hn : n.natAbs = 0
    · rw [hn]; rfl
    · obtain ⟨b, t, hb, hb48, -⟩ := utoa_head hn
      rw [hb] at h
      exact absurd (Option.some.inj h) hb48

end Go
