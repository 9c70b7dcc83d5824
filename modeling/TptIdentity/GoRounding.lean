import Mathlib.Tactic.Linarith
import TptIdentity.GoFloat

/-!
# Which magnitudes are read as a float

The value that `ofAbs` rounds to grows with the magnitude (`roundMag_mono`). So the magnitudes
that are read as one float are an interval around it (`Reads.convex`), in which every decimal of
17 digits lies (`reads_seventeen`).
-/

namespace Go

/-! ## Rounding to an integer -/

theorem floor_le_roundEven (q : ℚ) : ⌊q⌋₊ ≤ roundEven q := by
  unfold roundEven
  dsimp only
  split
  · exact Nat.le_succ _
  · exact le_rfl

theorem roundEven_le_floor (q : ℚ) : roundEven q ≤ ⌊q⌋₊ + 1 := by
  unfold roundEven
  dsimp only
  split
  · exact le_rfl
  · exact Nat.le_succ _

variable {r : ℚ} {e exp : Int} {mant : Nat} {neg : Bool}

theorem roundEven_mono {q : ℚ} (h : q ≤ r) : roundEven q ≤ roundEven r := by
  rcases (Nat.floor_mono h).lt_or_eq with hlt | heq
  · calc roundEven q ≤ ⌊q⌋₊ + 1 := roundEven_le_floor q
      _ ≤ ⌊r⌋₊ := hlt
      _ ≤ roundEven r := floor_le_roundEven r
  · unfold roundEven
    dsimp only
    rw [← heq]
    split
    · next hup =>
      rw [if_pos]
      rcases hup with hup | ⟨hup, hodd⟩
      · exact .inl (by linarith)
      · rcases h.lt_or_eq with hlt | rfl
        · exact .inl (by linarith)
        · exact .inr ⟨hup, hodd⟩
    · split
      · exact Nat.le_succ _
      · exact le_rfl

theorem abs_sub_roundEven_le {q : ℚ} (hq : 0 ≤ q) : |q - roundEven q| ≤ 1 / 2 := by
  have hfloor := Nat.floor_le hq
  have hceil := Nat.lt_floor_add_one q
  unfold roundEven
  dsimp only
  rw [abs_le]
  split
  · next hup =>
    push_cast
    rcases hup with hup | ⟨hup, -⟩
    · constructor <;> linarith
    · constructor <;> linarith
  · next hdown =>
    rw [not_or] at hdown
    constructor <;> linarith [not_lt.mp hdown.1]

theorem roundEven_eq {q : ℚ} {n : Nat} (hq : 0 ≤ q) (h : |q - n| < 1 / 2) : roundEven q = n := by
  have herr := abs_sub_roundEven_le hq
  rw [abs_lt] at h
  rw [abs_le] at herr
  have hlt : (roundEven q : ℚ) < n + 1 := by linarith
  have hgt : (n : ℚ) < roundEven q + 1 := by linarith
  have hlt' : roundEven q < n + 1 := by exact_mod_cast hlt
  have hgt' : n < roundEven q + 1 := by exact_mod_cast hgt
  omega

/-! ## The rounded magnitude -/

def roundMag (q : ℚ) : ℚ := roundEven (q / 2 ^ expFor q) * 2 ^ expFor q

@[simp] theorem expFor_zero : expFor 0 = -1074 := rfl

theorem expFor_ge (q : ℚ) : -1074 ≤ expFor q := by
  unfold expFor
  split
  · exact le_rfl
  · exact le_max_right _ _

theorem expFor_mono {q : ℚ} (hq : 0 ≤ q) (h : q ≤ r) : expFor q ≤ expFor r := by
  rcases hq.eq_or_lt with rfl | hq
  · exact expFor_ge r
  · rw [expFor, expFor, if_neg hq.ne', if_neg (hq.trans_le h).ne']
    exact max_le_max_right _ (by have := Int.log_mono_right (b := 2) hq h; omega)

theorem lt_zpow_expFor {q : ℚ} (hq : 0 ≤ q) : q < 2 ^ (expFor q + 53) := by
  rcases hq.eq_or_lt with rfl | hq
  · positivity
  · have hlog : Int.log 2 q < expFor q + 53 := by
      rw [expFor, if_neg hq.ne']
      omega
    exact_mod_cast (Int.lt_zpow_iff_log_lt (b := 2) (by norm_num) hq).mpr hlog

theorem zpow_expFor_le {q : ℚ} (hq : 0 < q) (h : -1074 < expFor q) : 2 ^ (expFor q + 52) ≤ q := by
  have hlog : expFor q + 52 ≤ Int.log 2 q := by
    rw [expFor, if_neg hq.ne'] at h ⊢
    omega
  exact_mod_cast (Int.zpow_le_iff_le_log (b := 2) (by norm_num) hq).mpr hlog

theorem natCast_pow_mul_two (n : Nat) (e : Int) : ((2 ^ n : Nat) : ℚ) * 2 ^ e = 2 ^ (e + n) := by
  rw [Nat.cast_pow, Nat.cast_ofNat, zpow_add₀ (by norm_num), zpow_natCast, mul_comm]

theorem roundMag_le {q : ℚ} (hq : 0 ≤ q) : roundMag q ≤ 2 ^ (expFor q + 53) := by
  have hpow : (0 : ℚ) < 2 ^ expFor q := by positivity
  have hbound := natCast_pow_mul_two 53 (expFor q)
  have hround := roundEven_mono
    ((div_le_iff₀ hpow).mpr ((lt_zpow_expFor hq).le.trans_eq hbound.symm))
  rw [roundEven_natCast] at hround
  exact hbound ▸ mul_le_mul_of_nonneg_right (by exact_mod_cast hround) hpow.le

theorem le_roundMag {q : ℚ} (hq : 0 < q) (h : -1074 < expFor q) :
    2 ^ (expFor q + 52) ≤ roundMag q := by
  have hpow : (0 : ℚ) < 2 ^ expFor q := by positivity
  have hbound := natCast_pow_mul_two 52 (expFor q)
  have hround := roundEven_mono ((le_div_iff₀ hpow).mpr (hbound.trans_le (zpow_expFor_le hq h)))
  rw [roundEven_natCast] at hround
  exact hbound ▸ mul_le_mul_of_nonneg_right (by exact_mod_cast hround) hpow.le

theorem roundMag_mono {q : ℚ} (hq : 0 ≤ q) (h : q ≤ r) : roundMag q ≤ roundMag r := by
  rcases (expFor_mono hq h).eq_or_lt with heq | hlt
  · rw [roundMag, roundMag, ← heq]
    have hpow : (0 : ℚ) < 2 ^ expFor q := by positivity
    have hround := roundEven_mono (div_le_div_of_nonneg_right h hpow.le)
    exact mul_le_mul_of_nonneg_right (by exact_mod_cast hround) hpow.le
  · -- the exponents differ, and a power of two lies between
    have hr : 0 < r := by
      refine (hq.trans h).lt_of_ne' fun hr => ?_
      rw [hr, expFor_zero] at hlt
      exact absurd (expFor_ge q) (not_le.mpr hlt)
    calc roundMag q ≤ 2 ^ (expFor q + 53) := roundMag_le hq
      _ ≤ 2 ^ (expFor r + 52) := zpow_le_zpow_right₀ (by norm_num) (by omega)
      _ ≤ roundMag r := le_roundMag hr (lt_of_le_of_lt (expFor_ge q) hlt)

theorem abs_sub_roundMag_le {q : ℚ} (hq : 0 ≤ q) : |q - roundMag q| ≤ 2 ^ expFor q / 2 := by
  have hpow : (0 : ℚ) < 2 ^ expFor q := by positivity
  have herr := mul_le_mul_of_nonneg_right (abs_sub_roundEven_le (div_nonneg hq hpow.le)) hpow.le
  rw [← abs_of_pos hpow, ← abs_mul, abs_of_pos hpow, sub_mul, div_mul_cancel₀ _ hpow.ne'] at herr
  rw [roundMag]
  linarith

/-! ## Reading -/

theorem Float64.eq_of_normal {f : Float64} (hlt : mant < 2 ^ 53) (hge : -1074 ≤ exp)
    (hnormal : 2 ^ 52 ≤ mant ∨ exp = -1074) (h : (mant : ℚ) * 2 ^ exp = f.abs) :
    mant = f.mant ∧ exp = f.exp := by
  have hexp : exp = f.exp := by rw [← expFor_normal hlt hge hnormal, h, expFor_abs]
  refine ⟨?_, hexp⟩
  have hpow : (2 : ℚ) ^ f.exp ≠ 0 := by positivity
  rw [Float64.abs, hexp] at h
  exact_mod_cast mul_right_cancel₀ hpow h

def Float64.Reads (f : Float64) (q : ℚ) : Prop := roundMag q = f.abs

theorem Float64.make_eq_some {f : Float64} (h : Float64.make neg mant exp = some f) :
    f.neg = neg ∧ f.mant = mant ∧ f.exp = exp := by
  unfold Float64.make at h
  split at h
  · obtain rfl := Option.some.inj h
    exact ⟨rfl, rfl, rfl⟩
  · cases h

theorem exists_normal {q : ℚ} (hq : 0 ≤ q) : ∃ (mant : Nat) (exp : Int), mant < 2 ^ 53
    ∧ -1074 ≤ exp ∧ (2 ^ 52 ≤ mant ∨ exp = -1074) ∧ roundMag q = mant * 2 ^ exp
    ∧ ∀ neg, ofAbs neg q = Float64.make neg mant exp := by
  have hge := expFor_ge q
  by_cases hcarry : roundEven (q / 2 ^ expFor q) = 2 ^ 53
  · refine ⟨2 ^ 52, expFor q + 1, by norm_num, by omega, .inl le_rfl, ?_, fun neg => if_pos hcarry⟩
    rw [roundMag, hcarry, zpow_add₀ (by norm_num)]
    ring
  · have hle : roundEven (q / 2 ^ expFor q) ≤ 2 ^ 53 := by
      have hbound := (roundMag_le hq).trans_eq (natCast_pow_mul_two 53 (expFor q)).symm
      exact_mod_cast le_of_mul_le_mul_right hbound (by positivity)
    refine ⟨_, expFor q, lt_of_le_of_ne hle hcarry, hge, ?_, rfl, fun neg => if_neg hcarry⟩
    rcases hge.eq_or_lt with heq | hlt
    · exact .inr heq.symm
    · have hpos : 0 < q := by
        refine hq.lt_of_ne' fun h0 => ?_
        rw [h0, expFor_zero] at hlt
        exact lt_irrefl _ hlt
      have hbound := (natCast_pow_mul_two 52 (expFor q)).trans_le (le_roundMag hpos hlt)
      exact .inl (by exact_mod_cast le_of_mul_le_mul_right hbound (by positivity))

theorem ofAbs_eq_some {q : ℚ} {f : Float64} (hq : 0 ≤ q) :
    ofAbs neg q = some f ↔ f.neg = neg ∧ f.Reads q := by
  obtain ⟨mant, exp, hlt, hge, hnormal, hmag, hofAbs⟩ := exists_normal hq
  rw [hofAbs, Float64.Reads, hmag]
  constructor
  · intro h
    obtain ⟨hneg, hmant, hexp⟩ := Float64.make_eq_some h
    exact ⟨hneg, by rw [Float64.abs, hmant, hexp]⟩
  · rintro ⟨rfl, habs⟩
    obtain ⟨rfl, rfl⟩ := Float64.eq_of_normal hlt hge hnormal habs
    exact f.make_self

theorem parseFloat_eq_some {f : Float64} {c : Nat} {k : Int} :
    parseFloat ⟨f.neg, c, k⟩ = some f ↔ f.Reads (c * 10 ^ k) := by
  have hq : (0 : ℚ) ≤ c * 10 ^ k := by positivity
  rw [parseFloat, Decimal.abs, ofAbs_eq_some hq]
  exact and_iff_right rfl

theorem reads_abs (f : Float64) : f.Reads f.abs :=
  ((ofAbs_eq_some (by unfold Float64.abs; positivity)).mp (ofAbs_abs f)).2

theorem Float64.Reads.convex {f : Float64} {q s : ℚ} (hq : f.Reads q) (hs : f.Reads s) (h0 : 0 ≤ q)
    (hqr : q ≤ r) (hrs : r ≤ s) : f.Reads r := by
  refine le_antisymm ?_ ?_
  · exact (roundMag_mono (h0.trans hqr) hrs).trans_eq hs
  · exact hq.symm.trans_le (roundMag_mono h0 hqr)

theorem Float64.Reads.mono {f g : Float64} {q : ℚ} (hq : f.Reads q) (hr : g.Reads r) (h0 : 0 ≤ q)
    (h : q ≤ r) : f.abs ≤ g.abs := by
  rw [← hq, ← hr]
  exact roundMag_mono h0 h

/-! ## Close magnitudes -/

theorem expFor_le {q : ℚ} (he : -1074 ≤ e) (hq : 0 ≤ q) (h : q < 2 ^ (e + 53)) : expFor q ≤ e := by
  rcases hq.eq_or_lt with rfl | hq
  · exact he
  · have hlog : Int.log 2 q < e + 53 :=
      (Int.lt_zpow_iff_log_lt (b := 2) (by norm_num) hq).mp (by exact_mod_cast h)
    rw [expFor, if_neg hq.ne']
    omega

theorem le_expFor {q : ℚ} (h : 2 ^ (e + 52) ≤ q) : e ≤ expFor q := by
  have hq : 0 < q := lt_of_lt_of_le (by positivity) h
  have hlog : e + 52 ≤ Int.log 2 q :=
    (Int.zpow_le_iff_le_log (b := 2) (by norm_num) hq).mp (by exact_mod_cast h)
  rw [expFor, if_neg hq.ne']
  omega

theorem roundMag_eq {q : ℚ} (hq : 0 ≤ q) (he : expFor q = e) (h : |q - mant * 2 ^ e| < 2 ^ e / 2) :
    roundMag q = mant * 2 ^ e := by
  have hpow : (0 : ℚ) < 2 ^ e := by positivity
  have hround : roundEven (q / 2 ^ e) = mant := by
    have hdiv : q / 2 ^ e - mant = (q - mant * 2 ^ e) / 2 ^ e := by
      rw [sub_div, mul_div_cancel_right₀ _ hpow.ne']
    refine roundEven_eq (by positivity) ?_
    rw [hdiv, abs_div, abs_of_pos hpow, div_lt_iff₀ hpow]
    linarith
  rw [roundMag, he, hround]

variable {f : Float64} {q : ℚ}

theorem Float64.abs_add_le (f : Float64) : f.abs + 2 ^ f.exp ≤ 2 ^ (f.exp + 53) := by
  have hmant : (f.mant : ℚ) + 1 ≤ (2 ^ 53 : Nat) := by exact_mod_cast f.mant_lt
  have hpow : (0 : ℚ) < 2 ^ f.exp := by positivity
  refine le_trans ?_ (natCast_pow_mul_two 53 f.exp).le
  rw [Float64.abs]
  nlinarith

theorem reads_of_above (hle : f.abs ≤ q) (h : q - f.abs < 2 ^ f.exp / 2) : f.Reads q := by
  have h0 : 0 ≤ f.abs := by unfold Float64.abs; positivity
  have hlt : q < 2 ^ (f.exp + 53) := by linarith [f.abs_add_le]
  have hexp : expFor q = f.exp :=
    le_antisymm (expFor_le f.exp_ge (h0.trans hle) hlt) (expFor_abs f ▸ expFor_mono h0 hle)
  refine roundMag_eq (h0.trans hle) hexp ?_
  rw [← Float64.abs, abs_of_nonneg (sub_nonneg.mpr hle)]
  exact h

theorem reads_of_below (hq : 0 ≤ q) (hle : q ≤ f.abs) (h : f.abs - q < 2 ^ f.exp / 2)
    (hmant : 2 ^ 52 < f.mant ∨ f.exp = -1074) : f.Reads q := by
  have hge : f.exp ≤ expFor q := by
    rcases hmant with hmant | hexp
    · refine le_expFor ?_
      have hmant' : (2 : ℚ) ^ (52 : Int) + 1 ≤ f.mant := by exact_mod_cast hmant
      rw [Float64.abs] at h
      rw [zpow_add₀ (by norm_num), mul_comm]
      nlinarith
    · exact hexp ▸ expFor_ge q
  have hexp : expFor q = f.exp := le_antisymm (expFor_abs f ▸ expFor_mono hq hle) hge
  refine roundMag_eq hq hexp ?_
  rw [← Float64.abs, abs_sub_comm, abs_of_nonneg (sub_nonneg.mpr hle)]
  exact h

theorem reads_of_below_pow (hq : 0 ≤ q) (hlt : q < f.abs) (h : f.abs - q < 2 ^ f.exp / 4)
    (hmant : f.mant = 2 ^ 52) (hexp : -1074 < f.exp) : f.Reads q := by
  have hhalf : (2 : ℚ) ^ f.exp = 2 * 2 ^ (f.exp - 1) := by
    rw [zpow_sub₀ (by norm_num)]
    ring
  have habs : f.abs = (2 ^ 53 : Nat) * 2 ^ (f.exp - 1) := by
    rw [Float64.abs, hmant, hhalf]
    ring
  have hupper : expFor q ≤ f.exp - 1 := by
    exact expFor_le (by omega) hq (hlt.trans_eq (habs.trans (natCast_pow_mul_two 53 _)))
  have hlower : f.exp - 1 ≤ expFor q := by
    refine le_expFor ?_
    rw [zpow_add₀ (by norm_num), mul_comm]
    have : (2 : ℚ) ^ (52 : Int) + 1 ≤ (2 ^ 53 : Nat) := by norm_num
    nlinarith
  rw [Float64.Reads, habs]
  refine roundMag_eq hq (le_antisymm hupper hlower) ?_
  rw [← habs, abs_sub_comm, abs_of_pos (sub_pos.mpr hlt)]
  linarith

theorem reads_of_near (hq : 0 ≤ q) (h : |q - f.abs| < 2 ^ f.exp / 2)
    (hpow : f.mant = 2 ^ 52 → |q - f.abs| < 2 ^ f.exp / 4) : f.Reads q := by
  rcases le_or_gt f.abs q with hle | hlt
  · exact reads_of_above hle (by rwa [abs_of_nonneg (sub_nonneg.mpr hle)] at h)
  · rw [abs_sub_comm, abs_of_pos (sub_pos.mpr hlt)] at h hpow
    by_cases hexp : f.exp = -1074
    · exact reads_of_below hq hlt.le h (.inr hexp)
    · have hge := f.exp_ge
      rcases eq_or_ne f.mant (2 ^ 52) with hmant | hmant
      · exact reads_of_below_pow hq hlt (hpow hmant) hmant (by omega)
      · have hnormal := f.normal.resolve_right hexp
        exact reads_of_below hq hlt.le h (.inl (by omega))

theorem reads_seventeen {t : ℚ} (hq : 0 ≤ q) (hpos : 0 < t) (ht : 10 ^ 16 * t ≤ f.abs)
    (h : |q - f.abs| ≤ t / 2) : f.Reads q := by
  rw [Float64.abs] at ht
  refine reads_of_near hq ?_ fun hmant => ?_
  · have hmant : (f.mant : ℚ) ≤ 2 ^ 53 := by exact_mod_cast f.mant_lt.le
    nlinarith
  · have hmant' : (f.mant : ℚ) = 2 ^ 52 := by exact_mod_cast hmant
    rw [hmant'] at ht
    linarith

/-! ## The range -/

theorem exists_ofAbs (neg : Bool) (hq : 0 ≤ q) (h : q < 2 ^ (1023 : Int)) :
    ∃ f, ofAbs neg q = some f := by
  obtain ⟨mant, exp, hlt, hge, hnormal, hmag, hofAbs⟩ := exists_normal hq
  have hle : exp ≤ 971 := by
    rcases hnormal with hmant | hexp
    · have hexpFor : expFor q ≤ 970 := expFor_le (by omega) hq h
      have hbound : (2 : ℚ) ^ (exp + 52) ≤ 2 ^ (1023 : Int) := by
        calc (2 : ℚ) ^ (exp + 52) = (2 ^ 52 : Nat) * 2 ^ exp := (natCast_pow_mul_two 52 exp).symm
          _ ≤ mant * 2 ^ exp := by gcongr
          _ = roundMag q := hmag.symm
          _ ≤ 2 ^ (expFor q + 53) := roundMag_le hq
          _ ≤ 2 ^ (1023 : Int) := zpow_le_zpow_right₀ (by norm_num) (by omega)
      have := (zpow_le_zpow_iff_right₀ (by norm_num)).mp hbound
      omega
    · omega
  rw [hofAbs, Float64.make, dif_pos ⟨hlt, hge, hle, hnormal⟩]
  exact ⟨_, rfl⟩

theorem Float64.Reads.mant_ne_zero (h : f.Reads q) (hq : 1 ≤ q) : f.mant ≠ 0 := by
  intro hzero
  have hexp : -52 ≤ expFor q := le_expFor (by norm_num; exact hq)
  have hpos := (zpow_pos (by norm_num) _).trans_le (le_roundMag (one_pos.trans_le hq) (by omega))
  rw [show roundMag q = f.abs from h, Float64.abs, hzero, Nat.cast_zero, zero_mul] at hpos
  exact absurd hpos (lt_irrefl _)

end Go
