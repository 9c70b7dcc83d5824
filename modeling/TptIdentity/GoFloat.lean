import Mathlib.Algebra.Order.Field.Power
import Mathlib.Data.Int.Log
import Mathlib.Data.Rat.Floor
import Mathlib.Tactic.FieldSimp
import Mathlib.Tactic.NormNum
import Mathlib.Tactic.Positivity
import TptIdentity.GoNumber

/-!
# float64: rounding and shortest notation

`Float64` holds the finite binary64 values. `ofAbs` rounds a magnitude to nearest, ties to even;
`formatFloat` is the notation of `encoding/json`. Integers up to 2^53 are exact
(`parseFloat_int`).
-/

namespace Go

open List Option Int

/-- A finite float64: `±mant · 2^exp`, with a full mantissa unless the
exponent is the least one. -/
structure Float64 where
  neg : Bool
  mant : Nat
  exp : Int
  mant_lt : mant < 2 ^ 53
  exp_ge : -1074 ≤ exp
  exp_le : exp ≤ 971
  normal : 2 ^ 52 ≤ mant ∨ exp = -1074
deriving DecidableEq, Repr

namespace Float64

def abs (f : Float64) : ℚ := f.mant * 2 ^ f.exp

def make (neg : Bool) (mant : Nat) (exp : Int) : Option Float64 :=
  if h : mant < 2 ^ 53 ∧ -1074 ≤ exp ∧ exp ≤ 971 ∧ (2 ^ 52 ≤ mant ∨ exp = -1074) then
    some ⟨neg, mant, exp, h.1, h.2.1, h.2.2.1, h.2.2.2⟩
  else none

@[simp] theorem make_self (f : Float64) : make f.neg f.mant f.exp = some f := by
  rw [make, dif_pos ⟨f.mant_lt, f.exp_ge, f.exp_le, f.normal⟩]

end Float64

/-! ## Rounding -/

def roundEven (q : ℚ) : Nat :=
  let n := ⌊q⌋₊
  if 1 / 2 < q - n ∨ (q - n = 1 / 2 ∧ n % 2 = 1) then n + 1 else n

def expFor (q : ℚ) : Int := if q = 0 then -1074 else max (log 2 q - 52) (-1074)

/-- The float nearest to the magnitude `q ≥ 0`; none when it overflows. -/
def ofAbs (neg : Bool) (q : ℚ) : Option Float64 :=
  let e := expFor q
  let m := roundEven (q / 2 ^ e)
  if m = 2 ^ 53 then Float64.make neg (2 ^ 52) (e + 1) else Float64.make neg m e

def parseFloat (d : Decimal) : Option Float64 := ofAbs d.neg d.abs

@[simp] theorem roundEven_natCast (n : Nat) : roundEven n = n := by
  simp [roundEven]

theorem expFor_normal {mant : Nat} {exp : Int} (hlt : mant < 2 ^ 53) (hge : -1074 ≤ exp)
    (hnormal : 2 ^ 52 ≤ mant ∨ exp = -1074) : expFor (mant * 2 ^ exp) = exp := by
  have h2 : (1 : Nat) < 2 := by norm_num
  by_cases h0 : mant = 0
  · have hexp : exp = -1074 := by
      rcases hnormal with h | h
      · omega
      · exact h
    simp [expFor, h0, hexp]
  have hmant : (0 : ℚ) < mant := by exact_mod_cast Nat.pos_of_ne_zero h0
  have hpow : (0 : ℚ) < 2 ^ exp := by positivity
  have hpos : 0 < mant * (2 : ℚ) ^ exp := mul_pos hmant hpow
  -- the magnitude lies below 2^(exp+53), and at 2^(exp+52) or above when normal
  have hupper : ∀ k : Nat, mant < 2 ^ k → log 2 (mant * (2 : ℚ) ^ exp) < exp + k := by
    intro k hk
    rw [← lt_zpow_iff_log_lt h2 hpos]
    have hk' : (mant : ℚ) < 2 ^ (k : Int) := by rw [zpow_natCast]; exact_mod_cast hk
    calc mant * (2 : ℚ) ^ exp < 2 ^ (k : Int) * 2 ^ exp := mul_lt_mul_of_pos_right hk' hpow
      _ = ((2 : Nat) : ℚ) ^ (exp + k) := by
          rw [Nat.cast_ofNat, add_comm, zpow_add₀ (by norm_num)]
  have hlog := hupper 53 hlt
  rw [expFor, if_neg hpos.ne']
  rcases hnormal with h | h
  · have hle : exp + 52 ≤ log 2 (mant * (2 : ℚ) ^ exp) := by
      rw [← zpow_le_iff_le_log h2 hpos]
      have hm : (2 : ℚ) ^ (52 : Int) ≤ mant := by exact_mod_cast h
      calc ((2 : Nat) : ℚ) ^ (exp + 52) = 2 ^ (52 : Int) * 2 ^ exp := by
            rw [Nat.cast_ofNat, add_comm, zpow_add₀ (by norm_num)]
        _ ≤ mant * 2 ^ exp := mul_le_mul_of_nonneg_right hm hpow.le
    omega
  · by_cases h52 : mant < 2 ^ 52
    · have := hupper 52 h52
      omega
    · omega

variable (f : Float64)

theorem expFor_abs : expFor f.abs = f.exp :=
  expFor_normal f.mant_lt f.exp_ge f.normal

theorem ofAbs_abs : ofAbs f.neg f.abs = some f := by
  have hdiv : f.abs / 2 ^ f.exp = (f.mant : ℚ) := by
    have hpow : (2 : ℚ) ^ f.exp ≠ 0 := by positivity
    rw [Float64.abs, mul_div_assoc, div_self hpow, mul_one]
  have hne : f.mant ≠ 2 ^ 53 := f.mant_lt.ne
  simp only [ofAbs, expFor_abs, hdiv, roundEven_natCast, if_neg hne, Float64.make_self]

/-! ## Integers -/

theorem exists_abs_eq_natCast (neg : Bool) {n : Nat} (hn : n ≤ 2 ^ 53) :
    ∃ f : Float64, f.neg = neg ∧ f.abs = n := by
  by_cases h0 : n = 0
  · exact ⟨⟨neg, 0, -1074, by norm_num, by norm_num, by norm_num, .inr rfl⟩, rfl,
      by simp [Float64.abs, h0]⟩
  by_cases h53 : n = 2 ^ 53
  · refine ⟨⟨neg, 2 ^ 52, 1, by norm_num, by norm_num, by norm_num, .inl le_rfl⟩, rfl, ?_⟩
    rw [Float64.abs, h53]
    norm_num
  -- the mantissa is `n` shifted up to 53 bits
  have hlog : Nat.log 2 n < 53 := Nat.log_lt_of_lt_pow h0 (by omega)
  have hlow : 2 ^ Nat.log 2 n ≤ n := Nat.pow_log_le_self 2 h0
  have hhigh : n < 2 ^ (Nat.log 2 n + 1) := Nat.lt_pow_succ_log_self (by norm_num) n
  generalize Nat.log 2 n = k at *
  refine ⟨⟨neg, n * 2 ^ (52 - k), -((52 - k : Nat) : Int), ?_, by omega, by omega, .inl ?_⟩,
    rfl, ?_⟩
  · calc n * 2 ^ (52 - k) < 2 ^ (k + 1) * 2 ^ (52 - k) := by gcongr
      _ = 2 ^ 53 := by rw [← pow_add]; congr 1; omega
  · calc 2 ^ 52 = 2 ^ k * 2 ^ (52 - k) := by rw [← pow_add]; congr 1; omega
      _ ≤ n * 2 ^ (52 - k) := by gcongr
  · rw [Float64.abs, zpow_neg, zpow_natCast, Nat.cast_mul, Nat.cast_pow, Nat.cast_ofNat,
      mul_assoc, mul_inv_cancel₀ (by positivity), mul_one]

/-- `int64(f)`. Outside the range of int64 this is what amd64 delivers. -/
def Float64.toInt64 (f : Float64) : Int :=
  let n : Int := if f.neg then -(⌊f.abs⌋₊ : Int) else ⌊f.abs⌋₊
  if -2 ^ 63 ≤ n ∧ n < 2 ^ 63 then n else -2 ^ 63

theorem parseFloat_int {n : Int} (hn : n.natAbs ≤ 2 ^ 53) :
    ∃ f, parseFloat ⟨n < 0, n.natAbs, 0⟩ = some f ∧ f.toInt64 = n := by
  obtain ⟨f, hneg, habs⟩ := exists_abs_eq_natCast (decide (n < 0)) hn
  refine ⟨f, ?_, ?_⟩
  · rw [parseFloat, Decimal.abs, zpow_zero, mul_one, ← habs, ← hneg]
    exact ofAbs_abs f
  · simp only [Float64.toInt64, hneg, habs, Nat.floor_natCast, decide_eq_true_eq]
    split <;> split <;> omega

/-! ## The shortest notation -/

/-- The multiple of `10^k` next to a float that is read back as it. -/
def candidate (f : Float64) (k : Int) : Option (Nat × Int) :=
  let q := f.abs / 10 ^ k
  [roundEven q, ⌊q⌋₊, ⌊q⌋₊ + 1].findSome? fun c =>
    if parseFloat ⟨f.neg, c, k⟩ = some f then some (c, k) else none

def Float64.expansion (f : Float64) : Nat × Int :=
  if 0 ≤ f.exp then (f.mant * 2 ^ f.exp.toNat, 0) else (f.mant * 5 ^ (-f.exp).toNat, f.exp)

/-- The coefficient and exponent with the fewest digits that denote `f`; 17 always suffice. -/
def Float64.shortest (f : Float64) : Nat × Int :=
  ((List.range 17).findSome? fun (n : Nat) => candidate f (log 10 f.abs - n)).getD f.expansion

def trimZeros : Nat → Nat × Int → Nat × Int
  | 0, d => d
  | n + 1, (c, k) => if c ≠ 0 ∧ c % 10 = 0 then trimZeros n (c / 10, k + 1) else (c, k)

def layout (sci : Bool) (c : Nat) (k : Int) : Bytes × Bytes × Option Int :=
  let ds := utoa c
  if c = 0 then ([48], [], none)
  else if sci then (ds.take 1, ds.drop 1, some (k + ds.length - 1))
  else if 0 ≤ k then (ds ++ List.replicate k.toNat 48, [], none)
  else if -k < ds.length then
    (ds.take (ds.length - (-k).toNat), ds.drop (ds.length - (-k).toNat), none)
  else ([48], List.replicate ((-k).toNat - ds.length) 48 ++ ds, none)

def Float64.scientific (f : Float64) : Bool :=
  f.mant ≠ 0 && (f.abs < 4722366482869645 / 2 ^ 72 || 10 ^ 21 ≤ f.abs)

def Float64.parts (f : Float64) : Bytes × Bytes × Option Int :=
  let d := trimZeros (utoa f.shortest.1).length f.shortest
  layout f.scientific d.1 d.2

def formatFloat (f : Float64) : Bytes := literal f.neg f.parts.1 f.parts.2.1 f.parts.2.2

def Float64.decimal (f : Float64) : Decimal :=
  ⟨f.neg, natVal (f.parts.1 ++ f.parts.2.1), f.parts.2.2.getD 0 - f.parts.2.1.length⟩

theorem candidate_eq_some {f : Float64} {k : Int} {d : Nat × Int} (h : candidate f k = some d) :
    parseFloat ⟨f.neg, d.1, d.2⟩ = some f := by
  obtain ⟨c, -, hc⟩ := exists_of_findSome?_eq_some h
  split at hc
  · next hread =>
    obtain rfl := some.inj hc
    exact hread
  · cases hc

theorem parseFloat_expansion : parseFloat ⟨f.neg, f.expansion.1, f.expansion.2⟩ = some f := by
  have habs : (⟨f.neg, f.expansion.1, f.expansion.2⟩ : Decimal).abs = f.abs := by
    unfold Float64.expansion Decimal.abs Float64.abs
    split
    case isTrue h =>
      obtain ⟨n, hn⟩ := eq_ofNat_of_zero_le h
      simp [hn]
    case isFalse h =>
      obtain ⟨n, hn⟩ : ∃ n : Nat, f.exp = -n := ⟨(-f.exp).toNat, by omega⟩
      simp only [hn, neg_neg, toNat_natCast, Nat.cast_mul, Nat.cast_pow, Nat.cast_ofNat,
        zpow_neg, zpow_natCast]
      rw [show (10 : ℚ) = 5 * 2 by norm_num, mul_pow]
      field_simp
  rw [parseFloat, habs]
  exact ofAbs_abs f

theorem parseFloat_shortest : parseFloat ⟨f.neg, f.shortest.1, f.shortest.2⟩ = some f := by
  unfold Float64.shortest
  cases h : (List.range 17).findSome? fun (n : Nat) => candidate f (log 10 f.abs - n) with
  | none => exact parseFloat_expansion f
  | some d =>
    obtain ⟨n, -, hn⟩ := exists_of_findSome?_eq_some h
    exact candidate_eq_some hn

theorem trimZeros_value : ∀ (n c : Nat) (k : Int),
    ((trimZeros n (c, k)).1 : ℚ) * 10 ^ (trimZeros n (c, k)).2 = c * 10 ^ k
  | 0, _, _ => rfl
  | n + 1, c, k => by
    unfold trimZeros
    split
    case isTrue h =>
      have hc : (c : ℚ) = (c / 10 : Nat) * 10 := by
        have : c = c / 10 * 10 := by omega
        exact_mod_cast this
      rw [trimZeros_value n, hc, zpow_add₀ (by norm_num), zpow_one]
      ring
    case isFalse => rfl

structure Layout (c : Nat) (k : Int) (parts : Bytes × Bytes × Option Int) : Prop where
  int : IsDigits parts.1
  int_ne : parts.1 ≠ []
  int_head : parts.1.head? = some 48 → parts.1.length = 1
  frac : IsDigits parts.2.1
  value : (natVal (parts.1 ++ parts.2.1) : ℚ) * 10 ^ (parts.2.2.getD 0 - parts.2.1.length)
    = c * 10 ^ k

theorem IsDigits.take {s : Bytes} (h : IsDigits s) (n : Nat) : IsDigits (s.take n) :=
  fun b hb => h b (mem_of_mem_take hb)

theorem IsDigits.drop {s : Bytes} (h : IsDigits s) (n : Nat) : IsDigits (s.drop n) :=
  fun b hb => h b (mem_of_mem_drop hb)

theorem layout_spec (sci : Bool) (c : Nat) (k : Int) : Layout c k (layout sci c k) := by
  have hnil : IsDigits [] := by simp [IsDigits]
  have h48 : IsDigits [48] := isDigits_replicate_zero 1
  unfold layout
  by_cases hc : c = 0
  · rw [if_pos hc]
    exact ⟨h48, by simp, fun _ => rfl, hnil, by simp [hc, natVal]⟩
  obtain ⟨b, t, hb, hb48, -⟩ := utoa_head hc
  have hds := isDigits_utoa c
  have hval := natVal_utoa c
  have hhead : ∀ n s, ((utoa c).take (n + 1) ++ s).head? = some 48 → False := by
    intro n s h
    rw [hb] at h
    exact hb48 (some.inj h)
  have hlen : 0 < (utoa c).length := by rw [hb]; simp
  rw [if_neg hc]
  generalize utoa c = ds at *
  cases sci with
  | true =>
    refine ⟨hds.take 1, by simp [hb], fun h => absurd (by simpa using h) (hhead 0 []),
      hds.drop 1, ?_⟩
    simp only [↓reduceIte, take_append_drop, hval, getD_some, length_drop]
    congr 2
    omega
  | false =>
  by_cases hk : 0 ≤ k
  · rw [if_neg (by simp), if_pos hk]
    refine ⟨hds.append (isDigits_replicate_zero _), by simp [hb], fun h => ?_, hnil, ?_⟩
    · rw [hb] at h
      exact absurd (some.inj h) hb48
    · obtain ⟨n, rfl⟩ := eq_ofNat_of_zero_le hk
      simp [natVal_append, hval, natVal_replicate_zero]
  rw [if_neg (by simp), if_neg hk]
  by_cases hpoint : -k < ds.length
  · rw [if_pos hpoint]
    obtain ⟨m, hm⟩ : ∃ m, ds.length - (-k).toNat = m + 1 :=
      ⟨ds.length - (-k).toNat - 1, by omega⟩
    rw [hm]
    refine ⟨hds.take _, by simp [hb], fun h => absurd (by simpa using h) (hhead m []),
      hds.drop _, ?_⟩
    simp only [take_append_drop, hval, getD_none, length_drop]
    congr 2
    omega
  · rw [if_neg hpoint]
    refine ⟨h48, by simp, fun _ => rfl, (isDigits_replicate_zero _).append hds, ?_⟩
    have hz : natVal ([48] ++ (List.replicate ((-k).toNat - ds.length) 48 ++ ds)) = c := by
      rw [natVal_append, natVal_append, natVal_replicate_zero, hval]
      simp [natVal]
    simp only [getD_none, length_append, length_replicate]
    congr 2
    omega

theorem parts_spec :
    ∃ c k, Layout c k f.parts ∧ (c : ℚ) * 10 ^ k = f.shortest.1 * 10 ^ f.shortest.2 :=
  ⟨_, _, layout_spec .., trimZeros_value ..⟩

theorem scanNumber_formatFloat {s : Bytes} (hs : EndsNumber s) :
    scanNumber (formatFloat f ++ s) = some (f.decimal, s) := by
  obtain ⟨c, k, h, -⟩ := parts_spec f
  exact scanNumber_literal h.int h.int_ne h.int_head h.frac hs

@[simp] theorem parseFloat_decimal : parseFloat f.decimal = some f := by
  obtain ⟨c, k, h, hvalue⟩ := parts_spec f
  have hread := parseFloat_shortest f
  rw [parseFloat, Decimal.abs] at hread ⊢
  rw [Float64.decimal, h.value, hvalue]
  exact hread

theorem literal_head {neg : Bool} {int frac : Bytes} {exp : Option Int} (hint : IsDigits int)
    (hne : int ≠ []) : ∃ c s, literal neg int frac exp = c :: s ∧ (c = 45 ∨ isDigit c) := by
  obtain ⟨d, ds, rfl⟩ := exists_cons_of_ne_nil hne
  cases neg with
  | true => exact ⟨45, _, rfl, .inl rfl⟩
  | false => exact ⟨d, _, rfl, .inr (hint d mem_cons_self)⟩

theorem formatFloat_head : ∃ c s, formatFloat f = c :: s ∧ (c = 45 ∨ isDigit c) := by
  obtain ⟨c, k, h, -⟩ := parts_spec f
  exact literal_head h.int h.int_ne

theorem itoa_head (n : Int) : ∃ c s, itoa n = c :: s ∧ (c = 45 ∨ isDigit c) := by
  rw [itoa_eq_literal]
  exact literal_head (isDigits_utoa _) (utoa_ne_nil _)

example : parseFloat ⟨false, 1, -6⟩ = Float64.make false 4722366482869645 (-72) := by
  decide +kernel

end Go
