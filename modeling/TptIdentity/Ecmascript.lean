import Mathlib.Tactic.LinearCombination
import TptIdentity.GoRounding

/-!
# Numbers as ECMAScript writes them

The search of `strconv` finds the decimal that `Number::toString` asks for
(`isShortest_shortest`), so both write every number but the negative zero alike
(`esNumber_eq_formatFloat`).
-/

namespace Go

open List Int Float64 Option

/-! ## The shortest decimal -/

def decimalValue (s k : Nat) (n : Int) : ℚ := s * 10 ^ (n - k)

structure Denotes (f : Float64) (s k : Nat) (n : Int) : Prop where
  pos : 1 ≤ k
  ge : 10 ^ (k - 1) ≤ s
  lt : s < 10 ^ k
  reads : f.Reads (decimalValue s k n)

structure IsShortest (f : Float64) (s k : Nat) (n : Int) : Prop where
  denotes : Denotes f s k n
  least : ∀ s' k' n', Denotes f s' k' n' → k ≤ k'
  nearest : ∀ s' n', Denotes f s' k n' →
    |decimalValue s k n - f.abs| ≤ |decimalValue s' k n' - f.abs|
  even : ∀ s' n', Denotes f s' k n' → decimalValue s' k n' ≠ decimalValue s k n →
    |decimalValue s k n - f.abs| = |decimalValue s' k n' - f.abs| → s % 2 = 0

section Decimals

variable {f : Float64} {s k : Nat} {n : Int}

theorem ten_zpow_mul {a b c : Int} (h : a + b = c) : (10 : ℚ) ^ a * 10 ^ b = 10 ^ c := by
  rw [← h, zpow_add₀ (by norm_num)]

theorem zpow_le_decimalValue (hk : 1 ≤ k) (h : 10 ^ (k - 1) ≤ s) :
    (10 : ℚ) ^ (n - 1) ≤ decimalValue s k n := by
  have hs : (10 : ℚ) ^ ((k : Int) - 1) ≤ s := by
    exact_mod_cast h
  calc (10 : ℚ) ^ (n - 1) = 10 ^ ((k : Int) - 1) * 10 ^ (n - k) := (ten_zpow_mul (by omega)).symm
    _ ≤ s * 10 ^ (n - k) := by gcongr

theorem decimalValue_lt_zpow (h : s < 10 ^ k) : decimalValue s k n < 10 ^ n := by
  have hs : (s : ℚ) < 10 ^ (k : Int) := by
    exact_mod_cast h
  calc (s : ℚ) * 10 ^ (n - k) < 10 ^ (k : Int) * 10 ^ (n - k) := by gcongr
    _ = 10 ^ n := ten_zpow_mul (by omega)

theorem Denotes.zpow_le (h : Denotes f s k n) : (10 : ℚ) ^ (n - 1) ≤ decimalValue s k n :=
  zpow_le_decimalValue h.pos h.ge

theorem Denotes.lt_zpow (h : Denotes f s k n) : decimalValue s k n < 10 ^ n :=
  decimalValue_lt_zpow h.lt

theorem decimalValue_nonneg (s k : Nat) (n : Int) : 0 ≤ decimalValue s k n := by
  unfold decimalValue
  positivity

variable {s' : Nat} {n' : Int}

theorem Denotes.point_le {f' : Float64} {k' : Nat} (h : Denotes f s k n)
    (h' : Denotes f' s' k' n') (hle : decimalValue s k n ≤ decimalValue s' k' n') : n ≤ n' := by
  have hlt : (10 : ℚ) ^ (n - 1) < 10 ^ n' := (h.zpow_le.trans hle).trans_lt h'.lt_zpow
  have := (zpow_lt_zpow_iff_right₀ (by norm_num)).mp hlt
  omega

theorem Denotes.eq_of_value (h : Denotes f s k n) (h' : Denotes f s' k n')
    (hvalue : decimalValue s k n = decimalValue s' k n') : s = s' ∧ n = n' := by
  have hn : n = n' := le_antisymm (h.point_le h' hvalue.le) (h'.point_le h hvalue.ge)
  refine ⟨?_, hn⟩
  rw [decimalValue, decimalValue, hn] at hvalue
  exact_mod_cast mul_right_cancel₀ (by positivity) hvalue

theorem IsShortest.not_between (h : IsShortest f s k n)
    (h' : IsShortest f s' k n') {w : Nat} {m : Int} (hge : 10 ^ (k - 1) ≤ w) (hlt : w < 10 ^ k)
    (hlow : decimalValue s k n < decimalValue w k m)
    (hhigh : decimalValue w k m < decimalValue s' k n') : False := by
  have hreads := h.denotes.reads.convex h'.denotes.reads (decimalValue_nonneg ..) hlow.le hhigh.le
  have hw : Denotes f w k m := ⟨h.denotes.pos, hge, hlt, hreads⟩
  have h1 := h.nearest w m hw
  have h2 := h'.nearest w m hw
  rcases le_total (decimalValue w k m) f.abs with hle | hle
  · rw [abs_of_nonpos (by linarith), abs_of_nonpos (by linarith)] at h1
    linarith
  · rw [abs_of_nonneg (by linarith), abs_of_nonneg (by linarith)] at h2
    linarith

theorem IsShortest.value_le (h : IsShortest f s k n)
    (h' : IsShortest f s' k n') : decimalValue s' k n' ≤ decimalValue s k n := by
  by_contra hgt
  have hlt := not_le.mp hgt
  have htie : |decimalValue s k n - f.abs| = |decimalValue s' k n' - f.abs| :=
    le_antisymm (h.nearest _ _ h'.denotes) (h'.nearest _ _ h.denotes)
  have heven := h.even _ _ h'.denotes hlt.ne' htie
  have heven' := h'.even _ _ h.denotes hlt.ne htie.symm
  have hpow : (0 : ℚ) < 10 ^ (n - k) := by positivity
  have hstep : decimalValue s k n < decimalValue (s + 1) k n := by
    unfold decimalValue
    push_cast
    linarith
  have hge : 10 ^ (k - 1) ≤ s + 1 := h.denotes.ge.trans (Nat.le_succ s)
  rcases (h.denotes.point_le h'.denotes hlt.le).eq_or_lt with rfl | hpoint
  · -- with the point in one place, the digits are neighbours, and one of them is odd
    have hlt' : s < s' := by exact_mod_cast lt_of_mul_lt_mul_right hlt hpow.le
    have hne : s + 1 ≠ s' := by omega
    refine h.not_between h' hge ((lt_of_le_of_ne hlt' hne).trans h'.denotes.lt) hstep ?_
    have : ((s + 1 : Nat) : ℚ) < s' := by exact_mod_cast lt_of_le_of_ne hlt' hne
    exact mul_lt_mul_of_pos_right this hpow
  · -- otherwise the lower one has nines only, and is odd
    have hnines : s + 1 ≠ 10 ^ k := by
      intro heq
      obtain ⟨j, hj⟩ : ∃ j, k = j + 1 := ⟨k - 1, by have := h.denotes.pos; omega⟩
      rw [hj, pow_succ] at heq
      omega
    have hw : s + 1 < 10 ^ k := lt_of_le_of_ne h.denotes.lt hnines
    refine h.not_between h' hge hw hstep ?_
    calc decimalValue (s + 1) k n < 10 ^ n := decimalValue_lt_zpow hw
      _ ≤ 10 ^ (n' - 1) := zpow_le_zpow_right₀ (by norm_num) (by omega)
      _ ≤ decimalValue s' k n' := h'.denotes.zpow_le

theorem IsShortest.unique {k' : Nat} (h : IsShortest f s k n)
    (h' : IsShortest f s' k' n') : s = s' ∧ k = k' ∧ n = n' := by
  obtain rfl : k = k' :=
    le_antisymm (h.least _ _ _ h'.denotes) (h'.least _ _ _ h.denotes)
  have hvalue := le_antisymm (h'.value_le h) (h.value_le h')
  obtain ⟨hs, hn⟩ := h.denotes.eq_of_value h'.denotes hvalue
  exact ⟨hs, rfl, hn⟩

end Decimals

/-! ## The candidates of one length -/

theorem roundEven_even {q : ℚ} (hq : 0 ≤ q) (h : |q - roundEven q| = 1 / 2) :
    roundEven q % 2 = 0 := by
  have hfloor := Nat.floor_le hq
  have hceil := Nat.lt_floor_add_one q
  unfold roundEven at h ⊢
  dsimp only at h ⊢
  split
  · next hup =>
    rw [if_pos hup] at h
    push_cast at h
    rcases hup with hup | ⟨-, hodd⟩
    · rw [abs_of_neg (by linarith)] at h
      linarith
    · omega
  · next hdown =>
    rw [if_neg hdown, abs_of_nonneg (by linarith)] at h
    rw [not_or, not_and] at hdown
    have := hdown.2 h
    omega

section Candidates

variable {f : Float64} {k : Int}

theorem Float64.abs_nonneg (f : Float64) : 0 ≤ f.abs := by
  unfold abs
  positivity

structure IsBest (f : Float64) (k : Int) (c : Nat) : Prop where
  reads : f.Reads (c * 10 ^ k)
  next : c = ⌊f.abs / 10 ^ k⌋₊ ∨ c = ⌊f.abs / 10 ^ k⌋₊ + 1
  best : ∀ M : Nat, f.Reads (M * 10 ^ k) → M ≠ c →
    |c * 10 ^ k - f.abs| < |M * 10 ^ k - f.abs|
      ∨ |c * 10 ^ k - f.abs| = |M * 10 ^ k - f.abs| ∧ c % 2 = 0

theorem IsBest.nearest {c : Nat} (h : IsBest f k c) {M : Nat} (hM : f.Reads (M * 10 ^ k)) :
    |c * 10 ^ k - f.abs| ≤ |M * 10 ^ k - f.abs| := by
  rcases eq_or_ne M c with rfl | hne
  · exact le_rfl
  · rcases h.best M hM hne with hlt | ⟨heq, -⟩
    · exact hlt.le
    · exact heq.le

theorem floor_mul_le (f : Float64) (k : Int) : (⌊f.abs / 10 ^ k⌋₊ : ℚ) * 10 ^ k ≤ f.abs := by
  have hpow : (0 : ℚ) < 10 ^ k := by positivity
  exact (le_div_iff₀ hpow).mp (Nat.floor_le (div_nonneg f.abs_nonneg hpow.le))

theorem lt_floor_mul (f : Float64) (k : Int) : f.abs < (⌊f.abs / 10 ^ k⌋₊ + 1 : Nat) * 10 ^ k := by
  have hpow : (0 : ℚ) < 10 ^ k := by positivity
  have hlt := (div_lt_iff₀ hpow).mp (Nat.lt_floor_add_one (f.abs / 10 ^ k))
  push_cast
  exact hlt

theorem mul_le_mul_zpow {a b : Nat} (h : a ≤ b) (k : Int) : (a : ℚ) * 10 ^ k ≤ b * 10 ^ k := by
  gcongr

theorem reads_floor {M : Nat} (h : f.Reads (M * 10 ^ k)) (hle : M ≤ ⌊f.abs / 10 ^ k⌋₊) :
    f.Reads (⌊f.abs / 10 ^ k⌋₊ * 10 ^ k) :=
  h.convex (reads_abs f) (by positivity) (mul_le_mul_zpow hle k) (floor_mul_le f k)

theorem reads_ceil {M : Nat} (h : f.Reads (M * 10 ^ k)) (hlt : ⌊f.abs / 10 ^ k⌋₊ < M) :
    f.Reads ((⌊f.abs / 10 ^ k⌋₊ + 1 : Nat) * 10 ^ k) :=
  (reads_abs f).convex h f.abs_nonneg (lt_floor_mul f k).le (mul_le_mul_zpow hlt k)

theorem isBest_floor (h : f.Reads (⌊f.abs / 10 ^ k⌋₊ * 10 ^ k))
    (hceil : ¬ f.Reads ((⌊f.abs / 10 ^ k⌋₊ + 1 : Nat) * 10 ^ k)) :
    IsBest f k ⌊f.abs / 10 ^ k⌋₊ := by
  have hfloor := floor_mul_le f k
  refine ⟨h, .inl rfl, fun M hM hne => .inl ?_⟩
  have hle : M ≤ ⌊f.abs / 10 ^ k⌋₊ := Nat.le_of_not_lt fun hlt => hceil (reads_ceil hM hlt)
  have hlt : (M : ℚ) < ⌊f.abs / 10 ^ k⌋₊ := by exact_mod_cast lt_of_le_of_ne hle hne
  have hlt' : (M : ℚ) * 10 ^ k < ⌊f.abs / 10 ^ k⌋₊ * 10 ^ k := by gcongr
  rw [abs_of_nonpos (by linarith), abs_of_nonpos (by linarith)]
  linarith

theorem isBest_ceil (h : f.Reads ((⌊f.abs / 10 ^ k⌋₊ + 1 : Nat) * 10 ^ k))
    (hfloor : ¬ f.Reads (⌊f.abs / 10 ^ k⌋₊ * 10 ^ k)) : IsBest f k (⌊f.abs / 10 ^ k⌋₊ + 1) := by
  have hceil := lt_floor_mul f k
  refine ⟨h, .inr rfl, fun M hM hne => .inl ?_⟩
  have hle : ⌊f.abs / 10 ^ k⌋₊ + 1 ≤ M := Nat.lt_of_not_le fun hle => hfloor (reads_floor hM hle)
  have hlt : ((⌊f.abs / 10 ^ k⌋₊ + 1 : Nat) : ℚ) < M := by
    exact_mod_cast lt_of_le_of_ne hle hne.symm
  have hlt' : ((⌊f.abs / 10 ^ k⌋₊ + 1 : Nat) : ℚ) * 10 ^ k < M * 10 ^ k := by gcongr
  rw [abs_of_nonneg (by linarith), abs_of_nonneg (by linarith)]
  linarith

theorem abs_mul_sub (f : Float64) (k : Int) (M : Nat) :
    |M * 10 ^ k - f.abs| = |f.abs / 10 ^ k - M| * 10 ^ k := by
  have hpow : (0 : ℚ) < 10 ^ k := by positivity
  rw [← abs_of_pos hpow, ← abs_mul, abs_of_pos hpow, sub_mul, div_mul_cancel₀ _ hpow.ne',
    abs_sub_comm]

theorem isBest_roundEven (h : f.Reads (roundEven (f.abs / 10 ^ k) * 10 ^ k)) :
    IsBest f k (roundEven (f.abs / 10 ^ k)) := by
  have hpow : (0 : ℚ) < 10 ^ k := by positivity
  have hq : 0 ≤ f.abs / 10 ^ k := div_nonneg f.abs_nonneg hpow.le
  have herr := abs_sub_roundEven_le hq
  refine ⟨h, ?_, fun M _ hne => ?_⟩
  · have h1 := floor_le_roundEven (f.abs / 10 ^ k)
    have h2 := roundEven_le_floor (f.abs / 10 ^ k)
    omega
  · -- any other integer is at least half away
    have hfar : 1 / 2 ≤ |f.abs / 10 ^ k - M| := by
      by_contra hlt
      exact hne (roundEven_eq hq (not_le.mp hlt)).symm
    rw [abs_mul_sub, abs_mul_sub]
    rcases (herr.trans hfar).lt_or_eq with hlt | heq
    · exact .inl (mul_lt_mul_of_pos_right hlt hpow)
    · exact .inr ⟨by rw [heq], roundEven_even hq (le_antisymm herr (heq ▸ hfar))⟩

theorem isBest_of_candidate {d : Nat × Int} (h : candidate f k = some d) :
    d.2 = k ∧ IsBest f k d.1 := by
  have hround := floor_le_roundEven (f.abs / 10 ^ k)
  have hround' := roundEven_le_floor (f.abs / 10 ^ k)
  unfold candidate at h
  by_cases hr : parseFloat ⟨f.neg, roundEven (f.abs / 10 ^ k), k⟩ = some f
  · rw [findSome?_cons, if_pos hr] at h
    obtain rfl := some.inj h
    exact ⟨rfl, isBest_roundEven (parseFloat_eq_some.mp hr)⟩
  · rw [findSome?_cons, if_neg hr] at h
    rw [parseFloat_eq_some] at hr
    by_cases ha : parseFloat ⟨f.neg, ⌊f.abs / 10 ^ k⌋₊, k⟩ = some f
    · rw [findSome?_cons, if_pos ha] at h
      obtain rfl := some.inj h
      rw [parseFloat_eq_some] at ha
      obtain heq | heq : roundEven (f.abs / 10 ^ k) = ⌊f.abs / 10 ^ k⌋₊
          ∨ roundEven (f.abs / 10 ^ k) = ⌊f.abs / 10 ^ k⌋₊ + 1 := by omega
      · exact absurd ha (heq ▸ hr)
      · exact ⟨rfl, isBest_floor ha (heq ▸ hr)⟩
    · rw [findSome?_cons, if_neg ha] at h
      by_cases hb : parseFloat ⟨f.neg, ⌊f.abs / 10 ^ k⌋₊ + 1, k⟩ = some f
      · rw [findSome?_cons, if_pos hb] at h
        obtain rfl := some.inj h
        exact ⟨rfl, isBest_ceil (parseFloat_eq_some.mp hb) (mt parseFloat_eq_some.mpr ha)⟩
      · rw [findSome?_cons, if_neg hb] at h
        cases h

theorem isSome_candidate {M : Nat} (h : f.Reads (M * 10 ^ k)) : (candidate f k).isSome := by
  have hread : ∀ c ∈ [roundEven (f.abs / 10 ^ k), ⌊f.abs / 10 ^ k⌋₊, ⌊f.abs / 10 ^ k⌋₊ + 1],
      f.Reads (c * 10 ^ k) → (candidate f k).isSome := by
    intro c hc hc'
    rw [candidate, findSome?_isSome_iff]
    exact ⟨c, hc, by rw [if_pos (parseFloat_eq_some.mpr hc')]; rfl⟩
  rcases Nat.lt_or_ge ⌊f.abs / 10 ^ k⌋₊ M with hlt | hle
  · exact hread _ (by simp) (reads_ceil h hlt)
  · exact hread _ (by simp) (reads_floor h hle)

end Candidates

/-! ## The search -/

theorem findSome?_range {α : Type} {g : Nat → Option α} {a : α} :
    ∀ {N : Nat}, (List.range N).findSome? g = some a → ∃ j < N, g j = some a ∧ ∀ i < j, g i = none
  | 0, h => by cases h
  | N + 1, h => by
    rw [range_succ, findSome?_append, or_eq_some_iff] at h
    rcases h with h | ⟨hnone, h⟩
    · obtain ⟨j, hj, hg, hlt⟩ := findSome?_range h
      exact ⟨j, by omega, hg, hlt⟩
    · refine ⟨N, by omega, by simpa using h, fun i hi => ?_⟩
      exact findSome?_eq_none_iff.mp hnone i (mem_range.mpr hi)

section Search

variable {f : Float64}

theorem Float64.abs_pos (hf : f.mant ≠ 0) : 0 < f.abs := by
  unfold abs
  positivity

theorem zpow_log_le (hf : f.mant ≠ 0) : (10 : ℚ) ^ log 10 f.abs ≤ f.abs := by
  exact_mod_cast zpow_log_le_self (b := 10) (by norm_num) (abs_pos hf)

theorem lt_zpow_log (f : Float64) : f.abs < (10 : ℚ) ^ (log 10 f.abs + 1) := by
  exact_mod_cast lt_zpow_succ_log_self (b := 10) (by norm_num) f.abs

theorem natCast_pow_mul (j : Nat) (L : Int) : ((10 ^ j : Nat) : ℚ) * 10 ^ (L - j) = 10 ^ L := by
  rw [Nat.cast_pow, Nat.cast_ofNat, ← zpow_natCast]
  exact ten_zpow_mul (by omega)

theorem natCast_pow_succ_mul (j : Nat) (L : Int) :
    ((10 ^ (j + 1) : Nat) : ℚ) * 10 ^ (L - j) = 10 ^ (L + 1) := by
  rw [← natCast_pow_mul (j + 1) (L + 1)]
  congr 2
  omega

variable {s k j c : Nat} {n : Int}

/-- Digits that are read as a float are a multiple of the unit at their length, or lie below
the power of ten below the float, which is then read as the float too. -/
theorem multiple_or_below (hf : f.mant ≠ 0) (h : Denotes f s k n) (hj : k ≤ j + 1) :
    (∃ M : Nat, decimalValue s k n = M * 10 ^ (log 10 f.abs - j))
      ∨ (decimalValue s k n < 10 ^ log 10 f.abs
        ∧ f.Reads ((10 ^ j : Nat) * 10 ^ (log 10 f.abs - j))) := by
  generalize hL : log 10 f.abs = L
  rcases le_or_gt (L - j) (n - k) with hle | hlt
  · left
    refine ⟨s * 10 ^ (n - k - (L - j)).toNat, ?_⟩
    have hexp : ((n - k - (L - j)).toNat : Int) = n - k - (L - j) := toNat_of_nonneg (by omega)
    rw [decimalValue, Nat.cast_mul, Nat.cast_pow, Nat.cast_ofNat, mul_assoc, ← zpow_natCast, hexp,
      ten_zpow_mul (c := n - k) (by omega)]
  · right
    have hbelow : decimalValue s k n < 10 ^ L :=
      h.lt_zpow.trans_le (zpow_le_zpow_right₀ (by norm_num) (by omega))
    refine ⟨hbelow, ?_⟩
    rw [natCast_pow_mul]
    exact h.reads.convex (reads_abs f) (decimalValue_nonneg ..) hbelow.le (hL ▸ zpow_log_le hf)

theorem isSome_candidate_of_denotes (hf : f.mant ≠ 0) (h : Denotes f s k n)
    (hj : k ≤ j + 1) : (candidate f (log 10 f.abs - j)).isSome := by
  rcases multiple_or_below hf h hj with ⟨M, hM⟩ | ⟨-, hreads⟩
  · exact isSome_candidate (hM ▸ h.reads)
  · exact isSome_candidate hreads

theorem isSome_candidate_seventeen (hf : f.mant ≠ 0) :
    (candidate f (log 10 f.abs - 16)).isSome := by
  generalize hL : log 10 f.abs = L
  have hpow : (0 : ℚ) < 10 ^ (L - 16) := by positivity
  have hq : 0 ≤ f.abs / 10 ^ (L - 16) := div_nonneg f.abs_nonneg hpow.le
  refine @isSome_candidate f _ (roundEven (f.abs / 10 ^ (L - 16))) ?_
  refine reads_seventeen (by positivity) hpow ?_ ?_
  · exact (by exact_mod_cast natCast_pow_mul 16 L : (10 : ℚ) ^ 16 * 10 ^ (L - 16) = 10 ^ L) ▸
      hL ▸ zpow_log_le hf
  · rw [abs_mul_sub]
    have herr := mul_le_mul_of_nonneg_right (abs_sub_roundEven_le hq) hpow.le
    linarith

theorem shortest_spec (hf : f.mant ≠ 0) : ∃ j : Nat, f.shortest.2 = log 10 f.abs - j
    ∧ IsBest f (log 10 f.abs - j) f.shortest.1
    ∧ ∀ s k n, Denotes f s k n → j + 1 ≤ k := by
  have hsome : ((List.range 17).findSome? fun (n : Nat) =>
      candidate f (log 10 f.abs - n)).isSome := by
    rw [findSome?_isSome_iff]
    exact ⟨16, by decide, isSome_candidate_seventeen hf⟩
  obtain ⟨d, hd⟩ := isSome_iff_exists.mp hsome
  obtain ⟨j, -, hj, hnone⟩ := findSome?_range hd
  obtain ⟨hexp, hbest⟩ := isBest_of_candidate hj
  have hshortest : f.shortest = d := by rw [shortest, hd, getD_some]
  rw [hshortest]
  refine ⟨j, hexp, hbest, fun s k n hden => ?_⟩
  by_contra hlt
  have hpos := hden.pos
  have hsome := isSome_candidate_of_denotes hf hden (show k ≤ j - 1 + 1 by omega)
  rw [hnone (j - 1) (by omega)] at hsome
  cases hsome

theorem IsBest.nearest_denotes (hf : f.mant ≠ 0)
    (h : IsBest f (log 10 f.abs - j) c) (hden : Denotes f s (j + 1) n) :
    |c * 10 ^ (log 10 f.abs - j) - f.abs| ≤ |decimalValue s (j + 1) n - f.abs|
      ∧ (decimalValue s (j + 1) n ≠ c * 10 ^ (log 10 f.abs - j) →
        |c * 10 ^ (log 10 f.abs - j) - f.abs| = |decimalValue s (j + 1) n - f.abs| →
        c % 2 = 0 ∧ ∃ M : Nat, M ≠ c ∧ f.Reads (M * 10 ^ (log 10 f.abs - j))
          ∧ decimalValue s (j + 1) n = M * 10 ^ (log 10 f.abs - j)) := by
  rcases multiple_or_below hf hden le_rfl with ⟨M, hM⟩ | ⟨hbelow, hreads⟩
  · have hreads : f.Reads (M * 10 ^ (log 10 f.abs - j)) := hM ▸ hden.reads
    rw [hM]
    refine ⟨h.nearest hreads, fun hne htie => ?_⟩
    have hMc : M ≠ c := fun heq => hne (heq ▸ rfl)
    rcases h.best M hreads hMc with hlt | ⟨-, heven⟩
    · exact absurd htie hlt.ne
    · exact ⟨heven, M, hMc, hreads, rfl⟩
  · have hle := h.nearest hreads
    have hlog := zpow_log_le hf
    have hlt : |((10 ^ j : Nat) : ℚ) * 10 ^ (log 10 f.abs - j) - f.abs|
        < |decimalValue s (j + 1) n - f.abs| := by
      rw [natCast_pow_mul, abs_of_nonpos (by linarith), abs_of_neg (by linarith)]
      linarith
    exact ⟨hle.trans hlt.le, fun _ htie => absurd htie (hle.trans_lt hlt).ne⟩

/-- No float lies halfway between nine and ten times a power of ten and is close to both:
it would be a small multiple of the least float, and 19 divides none of those. -/
theorem not_reads_nine {L : Int} (hx : f.abs = 19 / 2 * 10 ^ L) : ¬ f.Reads (9 * 10 ^ L) := by
  intro h
  have ht : (0 : ℚ) < 10 ^ L := by positivity
  have hle : (2 : ℚ) ^ expFor (9 * 10 ^ L) ≤ 2 ^ f.exp := by
    refine zpow_le_zpow_right₀ (by norm_num) ?_
    exact expFor_abs f ▸ expFor_mono (by positivity) (by rw [hx]; linarith)
  have herr := abs_sub_roundMag_le (show (0 : ℚ) ≤ 9 * 10 ^ L by positivity)
  rw [show roundMag (9 * 10 ^ L) = f.abs from h, hx, abs_of_neg (by linarith)] at herr
  rw [Float64.abs] at hx
  have hmant : f.mant ≤ 9 := by
    have hlt : (f.mant : ℚ) < 10 := by nlinarith
    have hlt' : f.mant < 10 := by exact_mod_cast hlt
    omega
  have hpos : 0 < f.mant := by
    refine Nat.pos_of_ne_zero fun h0 => ?_
    rw [h0] at hx
    linarith
  have hexp : f.exp = -1074 := f.normal.resolve_left (by omega)
  obtain ⟨P, hP⟩ : ∃ P : Nat, (2 : ℚ) ^ (-1074 : Int) * P = 1 :=
    ⟨2 ^ 1074, by rw [mul_comm, natCast_pow_mul_two]; rfl⟩
  have hscaled : 2 * (f.mant : ℚ) = 19 * 10 ^ L * P := by
    rw [hexp] at hx
    linear_combination 2 * hx * P - 2 * f.mant * hP
  have hpow : (10 : ℚ) ^ L * 10 ^ (-L).toNat = 10 ^ L.toNat := by
    rw [← zpow_natCast, ← zpow_natCast]
    exact ten_zpow_mul (by omega)
  have hnat : 2 * f.mant * 10 ^ (-L).toNat = 19 * (10 ^ L.toNat * P) := by
    have hcast : 2 * (f.mant : ℚ) * 10 ^ (-L).toNat = 19 * (10 ^ L.toNat * P) := by
      rw [hscaled, ← hpow]
      ring
    exact_mod_cast hcast
  have hdvd : 19 ∣ f.mant := by
    have h19 : 19 ∣ 2 * f.mant * 10 ^ (-L).toNat := ⟨_, hnat⟩
    have hcop : Nat.Coprime 19 (10 ^ (-L).toNat) := Nat.Coprime.pow_right _ (by decide)
    have h2 : 19 ∣ 2 * f.mant := hcop.dvd_of_dvd_mul_right h19
    exact Nat.Coprime.dvd_of_dvd_mul_left (by decide) h2
  exact absurd (Nat.le_of_dvd hpos hdvd) (by omega)

theorem trimZeros_of_mod (hc : c % 10 ≠ 0) (k : Int) : ∀ N, trimZeros N (c, k) = (c, k)
  | 0 => rfl
  | N + 1 => by rw [trimZeros, if_neg (by omega)]

theorem IsBest.bounds (hf : f.mant ≠ 0) (h : IsBest f (log 10 f.abs - j) c) :
    10 ^ j ≤ c ∧ c ≤ 10 ^ (j + 1) := by
  have hpow : (0 : ℚ) < 10 ^ (log 10 f.abs - j) := by positivity
  have hlow : 10 ^ j ≤ ⌊f.abs / 10 ^ (log 10 f.abs - j)⌋₊ := by
    refine Nat.le_floor ((le_div_iff₀ hpow).mpr ?_)
    rw [natCast_pow_mul]
    exact zpow_log_le hf
  have hhigh : ⌊f.abs / 10 ^ (log 10 f.abs - j)⌋₊ < 10 ^ (j + 1) := by
    refine (Nat.floor_lt (div_nonneg f.abs_nonneg hpow.le)).mpr ((div_lt_iff₀ hpow).mpr ?_)
    rw [natCast_pow_succ_mul]
    exact lt_zpow_log f
  have hnext := h.next
  omega

theorem decimalValue_eq {u : Int} (h : n - k = u) :
    decimalValue c k n = c * 10 ^ u := by rw [decimalValue, h]

theorem decimalValue_one {p : Int} (h : n - 1 = p) : decimalValue 1 1 n = 10 ^ p := by
  rw [decimalValue_eq h, Nat.cast_one, one_mul]

theorem IsBest.isShortest (hf : f.mant ≠ 0) (h : IsBest f (log 10 f.abs - j) c)
    (hleast : ∀ s k n, Denotes f s k n → j + 1 ≤ k) (hlt : c < 10 ^ (j + 1)) :
    IsShortest f c (j + 1) (log 10 f.abs + 1) := by
  have hvalue : decimalValue c (j + 1) (log 10 f.abs + 1) = c * 10 ^ (log 10 f.abs - j) :=
    decimalValue_eq (by push_cast; omega)
  refine ⟨⟨by omega, (h.bounds hf).1, hlt, hvalue ▸ h.reads⟩, hleast, fun s n hden => ?_,
    fun s n hden hne htie => ?_⟩
  · rw [hvalue]
    exact (h.nearest_denotes hf hden).1
  · rw [hvalue] at hne htie
    exact ((h.nearest_denotes hf hden).2 hne htie).1

theorem IsBest.mod_ten (hf : f.mant ≠ 0) (h : IsBest f (log 10 f.abs - j) c)
    (hleast : ∀ s k n, Denotes f s k n → j + 1 ≤ k) (hlt : c < 10 ^ (j + 1)) : c % 10 ≠ 0 := by
  intro hmod
  have hge := (h.bounds hf).1
  cases j with
  | zero => omega
  | succ j =>
    -- without the zero there is one digit less
    have hc : (c : ℚ) = (c / 10 : Nat) * 10 := by
      have : c = c / 10 * 10 := by omega
      exact_mod_cast this
    have hvalue : decimalValue (c / 10) (j + 1) (log 10 f.abs + 1)
        = c * 10 ^ (log 10 f.abs - ((j + 1 : Nat) : Int)) := by
      rw [decimalValue, hc, mul_assoc, ← zpow_one_add₀ (by norm_num)]
      congr 2
      omega
    have hden : Denotes f (c / 10) (j + 1) (log 10 f.abs + 1) := by
      refine ⟨by omega, ?_, by omega, hvalue ▸ h.reads⟩
      simp only [Nat.add_sub_cancel]
      omega
    have := hleast _ _ _ hden
    omega

theorem IsBest.not_tie_ten {L : Int} (h : IsBest f L 10) {M : Nat} (hM : M ≠ 10)
    (hlt : f.abs < 10 * 10 ^ L) (hreads : f.Reads (M * 10 ^ L)) :
    |((10 : Nat) : ℚ) * 10 ^ L - f.abs| ≠ |M * 10 ^ L - f.abs| := by
  intro htie
  have ht : (0 : ℚ) < 10 ^ L := by positivity
  push_cast at htie
  rw [abs_of_pos (by linarith)] at htie
  rcases le_or_gt f.abs (M * 10 ^ L) with hle | hgt
  · rw [abs_of_nonneg (by linarith)] at htie
    have hten : (M : ℚ) = 10 := mul_right_cancel₀ ht.ne' (by linarith)
    exact hM (by exact_mod_cast hten)
  · rw [abs_of_neg (by linarith)] at htie
    have hMlt : M < 10 := by
      have : (M : ℚ) < 10 := lt_of_mul_lt_mul_right (hgt.trans hlt) ht.le
      exact_mod_cast this
    by_cases hnine : M = 9
    · rw [hnine] at htie hreads
      push_cast at htie hreads
      exact not_reads_nine (by linarith) hreads
    · have hMle : (M : ℚ) * 10 ^ L ≤ 8 * 10 ^ L := by
        have : (M : ℚ) ≤ 8 := by exact_mod_cast (show M ≤ 8 by omega)
        gcongr
      have hreads9 : f.Reads ((9 : Nat) * 10 ^ L) := by
        refine hreads.convex h.reads (by positivity) ?_ ?_ <;> push_cast <;> linarith
      have hnear := h.nearest hreads9
      push_cast at hnear
      rw [abs_of_pos (by linarith), abs_of_nonneg (by linarith)] at hnear
      linarith

theorem IsBest.isShortest_pow (hf : f.mant ≠ 0) (h : IsBest f (log 10 f.abs - j) (10 ^ (j + 1)))
    (hleast : ∀ s k n, Denotes f s k n → j + 1 ≤ k) :
    j = 0 ∧ IsShortest f 1 1 (log 10 f.abs + 2) := by
  have hten := natCast_pow_succ_mul j (log 10 f.abs)
  have hvalue := decimalValue_one (p := log 10 f.abs + 1) (n := log 10 f.abs + 2) (by omega)
  have hden : Denotes f 1 1 (log 10 f.abs + 2) := by
    refine ⟨le_rfl, le_rfl, by norm_num, ?_⟩
    rw [hvalue, ← hten]
    exact h.reads
  obtain rfl : j = 0 := by
    have := hleast _ _ _ hden
    omega
  refine ⟨rfl, hden, hleast, fun s n hden' => ?_, fun s n hden' hne htie => ?_⟩
  · rw [hvalue, ← hten]
    exact (h.nearest_denotes hf hden').1
  · rw [hvalue, ← hten] at hne htie
    obtain ⟨-, M, hM, hreads, hMvalue⟩ := (h.nearest_denotes hf hden').2 hne htie
    rw [hMvalue] at htie
    simp only [Nat.cast_zero, sub_zero, zero_add, pow_one] at h hM hreads htie
    have hlt := lt_zpow_log f
    rw [zpow_add_one₀ (by norm_num), mul_comm] at hlt
    exact absurd htie (h.not_tie_ten hM hlt hreads)

theorem isShortest_shortest (hf : f.mant ≠ 0) : ∃ (s k : Nat) (n : Int),
    trimZeros (utoa f.shortest.1).length f.shortest = (s, n - k) ∧ IsShortest f s k n := by
  obtain ⟨j, hexp, hbest, hleast⟩ := shortest_spec hf
  have hpair : f.shortest = (f.shortest.1, log 10 f.abs - j) := Prod.ext rfl hexp
  rcases (hbest.bounds hf).2.lt_or_eq with hlt | hpow
  · refine ⟨f.shortest.1, j + 1, log 10 f.abs + 1, ?_, hbest.isShortest hf hleast hlt⟩
    rw [hpair, trimZeros_of_mod (hbest.mod_ten hf hleast hlt)]
    congr 1
    omega
  · rw [hpow] at hbest hpair
    obtain ⟨rfl, hshort⟩ := hbest.isShortest_pow hf hleast
    refine ⟨1, 1, _, ?_, hshort⟩
    have hlen : (utoa (10 ^ (0 + 1))).length = 2 := length_utoa (by omega) (by omega) (by omega)
    rw [hpair, hlen, trimZeros, if_pos (by omega), trimZeros, if_neg (by omega)]
    exact Prod.ext rfl (by push_cast; omega)

end Search

/-! ## Where the notation changes -/

variable {f : Float64}

theorem IsShortest.point_gt_iff {g : Float64} {s k : Nat} {n p : Int} (h : IsShortest f s k n)
    (hg : g.Reads (10 ^ p)) (hnear : |10 ^ p - g.abs| < 10 ^ (p - 1) / 2) :
    p < n ↔ g.abs ≤ f.abs := by
  have hpow : (0 : ℚ) < 10 ^ p := by positivity
  constructor
  · intro hlt
    refine hg.mono h.denotes.reads hpow.le ?_
    exact (zpow_le_zpow_right₀ (by norm_num) (by omega)).trans h.denotes.zpow_le
  · intro hle
    by_contra hpoint
    have hbelow : decimalValue s k n ≤ 10 ^ p :=
      h.denotes.lt_zpow.le.trans (zpow_le_zpow_right₀ (by norm_num) (by omega))
    -- then both are the same, and the power itself is shorter and nearer
    have heq : f.abs = g.abs :=
      le_antisymm (h.denotes.reads.mono hg (decimalValue_nonneg ..) hbelow) hle
    have hvalue := decimalValue_one (p := p) (n := p + 1) (by omega)
    have hden : Denotes f 1 1 (p + 1) := by
      refine ⟨le_rfl, le_rfl, by norm_num, ?_⟩
      rw [hvalue]
      exact hg.trans heq.symm
    obtain rfl : k = 1 := le_antisymm (h.least _ _ _ hden) h.denotes.pos
    have hnine : decimalValue s 1 n ≤ 9 * 10 ^ (p - 1) := by
      have hs : (s : ℚ) ≤ 9 := by
        have := h.denotes.lt
        exact_mod_cast (show s ≤ 9 by omega)
      have hexp : (10 : ℚ) ^ (n - (1 : Nat)) ≤ 10 ^ (p - 1) :=
        zpow_le_zpow_right₀ (by norm_num) (by push_cast; omega)
      exact mul_le_mul hs hexp (by positivity) (by norm_num)
    have hten : (10 : ℚ) ^ p = 10 ^ (1 : Int) * 10 ^ (p - 1) := (ten_zpow_mul (by omega)).symm
    have hnearest := h.nearest 1 (p + 1) hden
    rw [hvalue, heq] at hnearest
    have hclose := abs_lt.mp hnear
    rw [abs_of_neg (by linarith)] at hnearest
    linarith

theorem exists_reads_millionth :
    ∃ g : Float64, g.abs = 4722366482869645 / 2 ^ 72 ∧ g.Reads (10 ^ (-6 : Int)) := by
  refine ⟨⟨false, 4722366482869645, -72, by decide, by decide, by decide, by decide⟩,
    by norm_num [Float64.abs], ?_⟩
  rw [← one_mul (10 ^ (-6 : Int)), ← Nat.cast_one, ← parseFloat_eq_some]
  decide +kernel

theorem exists_reads_sextillion : ∃ g : Float64, g.abs = 10 ^ 21 ∧ g.Reads (10 ^ (21 : Int)) := by
  refine ⟨⟨false, 7629394531250000, 17, by decide, by decide, by decide, by decide⟩,
    by norm_num [Float64.abs], ?_⟩
  rw [← one_mul (10 ^ (21 : Int)), ← Nat.cast_one, ← parseFloat_eq_some]
  decide +kernel

theorem scientific_iff (hf : f.mant ≠ 0) {s k : Nat} {n : Int}
    (h : IsShortest f s k n) : f.scientific ↔ n ≤ -6 ∨ 21 < n := by
  obtain ⟨g, hmillionth, hreads⟩ := exists_reads_millionth
  obtain ⟨g', hsextillion, hreads'⟩ := exists_reads_sextillion
  have hlow := h.point_gt_iff hreads (by rw [hmillionth]; norm_num)
  have hhigh := h.point_gt_iff hreads' (by rw [hsextillion]; norm_num)
  rw [hmillionth] at hlow
  rw [hsextillion] at hhigh
  simp only [scientific, hf, ne_eq, not_false_eq_true, decide_true, Bool.true_and,
    Bool.or_eq_true, decide_eq_true_eq]
  rw [← hhigh, ← not_le, ← hlow, not_lt]

/-! ## The text -/

def esLayout (s k : Nat) (n : Int) : Bytes :=
  let digits := utoa s
  if k ≤ n ∧ n ≤ 21 then digits ++ replicate (n - k).toNat 48
  else if 0 < n ∧ n ≤ 21 then digits.take n.toNat ++ 46 :: digits.drop n.toNat
  else if -6 < n ∧ n ≤ 0 then 48 :: 46 :: (replicate (-n).toNat 48 ++ digits)
  else
    (if k = 1 then digits else digits.take 1 ++ 46 :: digits.drop 1)
      ++ 101 :: (if 0 < n then 43 else 45) :: utoa (n - 1).natAbs

/-- `t` is `Number::toString` of `f`. Both zeros are written alike. -/
inductive EsNumber (f : Float64) : Bytes → Prop where
  | zero (h : f.mant = 0) : EsNumber f [48]
  | digits {s k : Nat} {n : Int} (hf : f.mant ≠ 0) (h : IsShortest f s k n) :
      EsNumber f ((if f.neg then [45] else []) ++ esLayout s k n)

theorem EsNumber.unique {t t' : Bytes} (h : EsNumber f t) (h' : EsNumber f t') : t = t' := by
  cases h with
  | zero h =>
    cases h' with
    | zero h' => rfl
    | digits hf h' => exact absurd h hf
  | digits hf h =>
    cases h' with
    | zero h' => exact absurd h' hf
    | digits hf' h' =>
      obtain ⟨rfl, rfl, rfl⟩ := h.unique h'
      rfl

noncomputable def esNumber (f : Float64) : Bytes := Classical.epsilon (EsNumber f)

theorem EsNumber.eq {t : Bytes} (h : EsNumber f t) : esNumber f = t :=
  (Classical.epsilon_spec (p := EsNumber f) ⟨t, h⟩).unique h

section Layout

variable {s k : Nat} {n : Int}

def layoutText (p : Bytes × Bytes × Option Int) : Bytes := p.1 ++ (fracText p.2.1 ++ expText p.2.2)

theorem fracText_drop {ds : Bytes} {i : Nat} (h : i < ds.length) :
    fracText (ds.drop i) = 46 :: ds.drop i := by
  refine if_neg fun hnil => ?_
  have := drop_eq_nil_iff.mp hnil
  omega

theorem layoutText_scientific (hs : s ≠ 0) (hk : 1 ≤ k) (hlen : (utoa s).length = k)
    (hn : n ≤ -6 ∨ 21 < n) : layoutText (layout true s (n - k)) = esLayout s k n := by
  have hexp : n - k + k - 1 = n - 1 := by omega
  have hsign : (if n - 1 < 0 then 45 else 43 : UInt8) = if 0 < n then 43 else 45 := by
    split_ifs <;> first | rfl | omega
  rw [esLayout, if_neg (by omega), if_neg (by omega), if_neg (by omega), layout, if_neg hs,
    if_pos rfl, hlen, hexp, layoutText, expText, hsign, ← append_assoc]
  congr 1
  split
  · next hone =>
    rw [take_of_length_le (by omega), drop_of_length_le (by omega)]
    exact append_nil _
  · next hone => rw [fracText_drop (by omega)]

theorem layoutText_positional (hs : s ≠ 0) (hlen : (utoa s).length = k) (hlow : -6 < n)
    (hhigh : n ≤ 21) : layoutText (layout false s (n - k)) = esLayout s k n := by
  rw [layout, if_neg hs, if_neg Bool.false_ne_true]
  by_cases hint : (k : Int) ≤ n
  · rw [if_pos (by omega), esLayout, if_pos ⟨hint, hhigh⟩]
    exact append_nil _
  · rw [if_neg (by omega)]
    by_cases hpos : 0 < n
    · have htake : (utoa s).length - (-(n - k)).toNat = n.toNat := by omega
      rw [if_pos (by omega), htake, esLayout, if_neg (by omega), if_pos ⟨hpos, hhigh⟩, layoutText,
        fracText_drop (by omega)]
      exact congrArg _ (append_nil _)
    · have hzeros : (-(n - k)).toNat - (utoa s).length = (-n).toNat := by omega
      have hne : replicate (-n).toNat 48 ++ utoa s ≠ [] :=
        append_ne_nil_of_right_ne_nil _ (utoa_ne_nil s)
      rw [if_neg (by omega), hzeros, esLayout, if_neg (by omega), if_neg (by omega),
        if_pos (by omega), layoutText, fracText, if_neg hne]
      exact congrArg _ (append_nil _)

end Layout

theorem esNumber_zero (h : f.mant = 0) : esNumber f = [48] := (EsNumber.zero h).eq

theorem formatFloat_eq (f : Float64) :
    formatFloat f = (if f.neg then [45] else []) ++ layoutText f.parts := rfl

theorem formatFloat_zero (h : f.mant = 0) :
    formatFloat f = (if f.neg then [45] else []) ++ [48] := by
  -- there are two floats to look at
  have hzeros : ∀ neg, formatFloat ⟨neg, 0, -1074, by decide, by decide, by decide, by decide⟩
      = (if neg then [45] else []) ++ [48] := by decide +kernel
  rcases f with ⟨neg, mant, exp, hlt, hge, hle, hnormal⟩
  obtain rfl : mant = 0 := h
  obtain rfl : exp = -1074 := hnormal.resolve_left (by norm_num)
  exact hzeros neg

theorem esNumber_eq_formatFloat (hf : f.mant ≠ 0) : esNumber f = formatFloat f := by
  obtain ⟨s, k, n, htrim, h⟩ := isShortest_shortest hf
  have hs : s ≠ 0 := (lt_of_lt_of_le (by positivity) h.denotes.ge).ne'
  have hlen := length_utoa h.denotes.pos h.denotes.ge h.denotes.lt
  have hparts : f.parts = layout f.scientific s (n - k) := by rw [parts, htrim]
  have htext : layoutText f.parts = esLayout s k n := by
    have hsci := scientific_iff hf h
    rw [hparts]
    cases hcase : f.scientific with
    | true => exact layoutText_scientific hs h.denotes.pos hlen (hsci.mp hcase)
    | false =>
      have hn : ¬ (n ≤ -6 ∨ 21 < n) := by rw [← hsci, hcase]; exact Bool.false_ne_true
      exact layoutText_positional hs hlen (by omega) (by omega)
  rw [formatFloat_eq, htext]
  exact (EsNumber.digits hf h).eq

end Go
