import Mathlib.Data.List.DropRight
import TptIdentity.GoNumber

/-!
# Times

A `time.Time` is an instant with an offset. A time whose year has four digits and whose offset
is in whole minutes is read back from its RFC 3339 text (`parseRFC3339_rfc3339`). Years are
counted from the 1st of March.
-/

namespace Go

open List Option

/-! ## The calendar -/

structure Date where
  year : Int
  month : Nat
  day : Nat
deriving DecidableEq, Repr

def isLeap (year : Int) : Prop := year % 4 = 0 ∧ (year % 100 ≠ 0 ∨ year % 400 = 0)
deriving Decidable

def daysIn (month : Nat) (year : Int) : Nat :=
  if month = 2 then if isLeap year then 29 else 28
  else 30 + (month + month / 8) % 2

def yearOfCycle (d : Nat) : Nat × Nat :=
  let n100 := d / 36524 - d / 36524 / 4
  let d := d - 36524 * n100
  let n4 := d / 1461
  let d := d - 1461 * n4
  let n1 := d / 365 - d / 365 / 4
  (100 * n100 + 4 * n4 + n1, d - 365 * n1)

def daysBeforeYear (y : Nat) : Nat := 365 * y + y / 4 - y / 100

def daysBeforeMonth (m : Nat) : Nat := (153 * m + 2) / 5

def monthOfYear (d : Nat) : Nat := (5 * d + 2) / 153

def daysBeforeEpoch : Int := 719468

/-- January and February belong to the next year. -/
def Date.ofYear (cycle : Int) (y d : Nat) : Date :=
  let m := monthOfYear d
  { year := 400 * cycle + y + if m < 10 then 0 else 1
    month := if m < 10 then m + 3 else m - 9
    day := d - daysBeforeMonth m + 1 }

def Date.ofDays (days : Int) : Date :=
  let days := days + daysBeforeEpoch
  let yd := yearOfCycle (days % 146097).toNat
  .ofYear (days / 146097) yd.1 yd.2

def Date.days (date : Date) : Int :=
  let year := if date.month ≤ 2 then date.year - 1 else date.year
  let m := (date.month + 9) % 12
  146097 * (year / 400) + daysBeforeYear (year % 400).toNat + daysBeforeMonth m + date.day - 1
    - daysBeforeEpoch

variable {d y : Nat} (cycle offset : Int) (width : Nat) (s : Bytes) (n : Nat)

theorem yearOfCycle_spec (h : d < 146097) :
    (yearOfCycle d).1 < 400 ∧ (yearOfCycle d).2 ≤ 365
      ∧ daysBeforeYear (yearOfCycle d).1 + (yearOfCycle d).2 = d
      ∧ ((yearOfCycle d).2 = 365 → ((yearOfCycle d).1 + 1) % 4 = 0
        ∧ (((yearOfCycle d).1 + 1) % 100 ≠ 0 ∨ ((yearOfCycle d).1 + 1) % 400 = 0)) := by
  simp only [yearOfCycle, daysBeforeYear]
  generalize hn100 : d / 36524 - d / 36524 / 4 = n100
  have h100 : n100 ≤ 3 ∧ 36524 * n100 ≤ d
      ∧ (d - 36524 * n100 < 36524 ∨ d - 36524 * n100 = 36524 ∧ n100 = 3) := by omega
  generalize hd100 : d - 36524 * n100 = d100 at *
  generalize hn4 : d100 / 1461 = n4
  have h4 : n4 ≤ 24 ∧ 1461 * n4 ≤ d100 := by omega
  generalize hd4 : d100 - 1461 * n4 = d4
  generalize hn1 : d4 / 365 - d4 / 365 / 4 = n1
  have h1 : n1 ≤ 3 ∧ 365 * n1 ≤ d4
      ∧ (d4 - 365 * n1 < 365 ∨ d4 - 365 * n1 = 365 ∧ n1 = 3) := by omega
  generalize hd1 : d4 - 365 * n1 = d1 at *
  have hy4 : (100 * n100 + 4 * n4 + n1) / 4 = 25 * n100 + n4 := by omega
  clear hn100 hn4 hn1
  refine ⟨by omega, by omega, by omega, by omega⟩

theorem monthOfYear_le (h : d ≤ 365) : monthOfYear d ≤ 11 := by
  unfold monthOfYear
  omega

theorem daysBeforeMonth_le (d : Nat) : daysBeforeMonth (monthOfYear d) ≤ d := by
  unfold daysBeforeMonth monthOfYear
  omega

theorem Date.days_ofYear (hy : y < 400) (hd : d ≤ 365) :
    (Date.ofYear cycle y d).days
      = 146097 * cycle + daysBeforeYear y + d - daysBeforeEpoch := by
  have hm := monthOfYear_le hd
  have hle := daysBeforeMonth_le d
  unfold Date.ofYear Date.days
  generalize monthOfYear d = m at *
  have hmonth : ((if m < 10 then m + 3 else m - 9) + 9) % 12 = m := by
    split <;> omega
  have hyear : (if (if m < 10 then m + 3 else m - 9) ≤ 2
      then 400 * cycle + (y : Int) + (if m < 10 then 0 else 1) - 1
      else 400 * cycle + (y : Int) + (if m < 10 then 0 else 1)) = 400 * cycle + y := by
    by_cases h : m < 10
    · simp [h]
    · have h2 : m - 9 ≤ 2 := by omega
      simp [h, h2]
  have hcycle : (400 * cycle + (y : Int)) / 400 = cycle := by omega
  have hrest : ((400 * cycle + (y : Int)) % 400).toNat = y := by omega
  simp only [hmonth, hyear, hcycle, hrest]
  omega

theorem Date.days_ofDays (days : Int) : (Date.ofDays days).days = days := by
  unfold Date.ofDays
  obtain ⟨hy, hd, hdays, -⟩ :=
    yearOfCycle_spec (d := ((days + daysBeforeEpoch) % 146097).toNat) (by omega)
  rw [Date.days_ofYear _ hy hd]
  omega

structure Date.Valid (date : Date) : Prop where
  month_pos : 1 ≤ date.month
  month_le : date.month ≤ 12
  day_pos : 1 ≤ date.day
  day_le : date.day ≤ daysIn date.month date.year

theorem Date.valid_ofYear (hd : d ≤ 365)
    (hleap : d = 365 → (y + 1) % 4 = 0 ∧ ((y + 1) % 100 ≠ 0 ∨ (y + 1) % 400 = 0)) :
    (Date.ofYear cycle y d).Valid := by
  have hm := monthOfYear_le hd
  have hmd : (5 * d + 2) / 153 = monthOfYear d := rfl
  unfold Date.ofYear
  generalize monthOfYear d = m at *
  refine ⟨?_, ?_, by simp, ?_⟩
  · show 1 ≤ if m < 10 then m + 3 else m - 9
    split <;> omega
  · show (if m < 10 then m + 3 else m - 9) ≤ 12
    split <;> omega
  · show d - (153 * m + 2) / 5 + 1 ≤ daysIn (if m < 10 then m + 3 else m - 9)
      (400 * cycle + y + if m < 10 then 0 else 1)
    by_cases hfeb : m = 11
    · subst hfeb
      show d - (153 * 11 + 2) / 5 + 1 ≤ if isLeap (400 * cycle + y + 1) then 29 else 28
      by_cases hyear : isLeap (400 * cycle + y + 1)
      · rw [if_pos hyear]
        omega
      · rw [if_neg hyear]
        unfold isLeap at hyear
        omega
    · have hne : (if m < 10 then m + 3 else m - 9) ≠ 2 := by
        split <;> omega
      rw [daysIn, if_neg hne]
      interval_cases m <;> simp only [Nat.reduceLT, if_true, if_false] <;> omega

theorem Date.valid_ofDays (days : Int) : (Date.ofDays days).Valid := by
  obtain ⟨-, hd, -, hleap⟩ :=
    yearOfCycle_spec (d := ((days + daysBeforeEpoch) % 146097).toNat) (by omega)
  exact Date.valid_ofYear _ hd hleap

/-! ## Decimal fields -/

def pad (width n : Nat) : Bytes := (utoa n).leftpad width 48

def appendInt (x : Int) (width : Nat) : Bytes :=
  (if x < 0 then [45] else []) ++ pad width x.natAbs

theorem length_pad {width n : Nat} (hpos : 0 < width) (h : n < 10 ^ width) :
    (pad width n).length = width := by
  have := length_utoa_le hpos h
  rw [pad, length_leftpad]
  omega

theorem isDigits_pad : IsDigits (pad width n) :=
  (isDigits_replicate_zero _).append (isDigits_utoa n)

@[simp] theorem natVal_pad : natVal (pad width n) = n := by
  rw [pad, List.leftpad, natVal_append, natVal_replicate_zero, natVal_utoa]
  omega

def scanUint (width lo hi : Nat) (s : Bytes) : Option (Nat × Bytes) :=
  let ds := s.take width
  if ds.length = width ∧ ds.all isDigit = true ∧ lo ≤ natVal ds ∧ natVal ds ≤ hi then
    some (natVal ds, s.drop width)
  else none

theorem scanUint_pad (lo hi : Nat) {n : Nat} (s : Bytes) (hpos : 0 < width) (hw : n < 10 ^ width)
    (hlo : lo ≤ n) (hhi : n ≤ hi) : scanUint width lo hi (pad width n ++ s) = some (n, s) := by
  have hlen := length_pad hpos hw
  have htake : (pad width n ++ s).take width = pad width n := take_left' hlen
  have hdrop : (pad width n ++ s).drop width = s := drop_left' hlen
  have hall : (pad width n).all isDigit := List.all_eq_true.mpr (isDigits_pad width n)
  rw [scanUint, htake, hdrop, natVal_pad, if_pos ⟨hlen, hall, hlo, hhi⟩]

def scanByte (c : UInt8) : Bytes → Option Bytes
  | [] => none
  | b :: s => if b = c then some s else none

@[simp] theorem scanByte_cons (c : UInt8) (s : Bytes) : scanByte c (c :: s) = some s := if_pos rfl

/-! ## Times -/

/-- Nanoseconds since 1970, and the seconds its location is east of UTC. -/
structure Time where
  nanos : Int
  offset : Int
deriving DecidableEq, Repr

variable {t : Time}

namespace Time

def utc (nanos : Int) : Time := ⟨nanos, 0⟩

def seconds (t : Time) : Int := t.nanos / 1000000000 + t.offset

def date (t : Time) : Date := .ofDays (t.seconds / 86400)

def secondOfDay (t : Time) : Nat := (t.seconds % 86400).toNat

def nanosecond (t : Time) : Nat := (t.nanos % 1000000000).toNat

def fraction (nanosecond : Nat) : Bytes := (pad 9 nanosecond).rdropWhile (· = 48)

def zone (offset : Int) : Bytes :=
  if offset = 0 then [90]
  else
    let minutes := offset.natAbs / 60
    (if offset ≤ -60 then 45 else 43) :: (pad 2 (minutes / 60) ++ 58 :: pad 2 (minutes % 60))

def rfc3339 (nano : Bool) (t : Time) : Bytes :=
  appendInt t.date.year 4 ++ 45 :: (pad 2 t.date.month ++ 45 :: (pad 2 t.date.day
    ++ 84 :: (pad 2 (t.secondOfDay / 3600) ++ 58 :: (pad 2 (t.secondOfDay % 3600 / 60)
      ++ 58 :: (pad 2 (t.secondOfDay % 60)
        ++ ((if nano then fracText (fraction t.nanosecond) else []) ++ zone t.offset))))))

def marshalJSON (t : Time) : Res Bytes :=
  if t.date.year < 0 ∨ 9999 < t.date.year then
    .err (.new "Time.MarshalJSON: year outside of range [0,9999]" [])
  else if 24 * 60 ≤ t.offset.natAbs / 60 then
    .err (.new "Time.MarshalJSON: timezone hour outside of range [0,23]" [])
  else .ok (t.rfc3339 true)

end Time

def parseNanoseconds (frac : Bytes) : Nat := natVal (frac.take 9) * 10 ^ (9 - frac.length)

def parseZone : Bytes → Option Int
  | [] => none
  | c :: s =>
    if c = 90 ∧ s = [] then some 0
    else if c = 43 ∨ c = 45 then do
      let (hr, s) ← scanUint 2 0 23 s
      let s ← scanByte 58 s
      let (mm, s) ← scanUint 2 0 59 s
      let offset : Int := (hr * 60 + mm) * 60
      if s = [] then some (if c = 45 then -offset else offset) else none
    else none

def scanDate (s : Bytes) : Option (Date × Bytes) := do
  let (year, s) ← scanUint 4 0 9999 s
  let s ← scanByte 45 s
  let (month, s) ← scanUint 2 1 12 s
  let s ← scanByte 45 s
  let (day, s) ← scanUint 2 1 (daysIn month year) s
  some (⟨year, month, day⟩, s)

def scanClock (s : Bytes) : Option (Nat × Bytes) := do
  let (hour, s) ← scanUint 2 0 23 s
  let s ← scanByte 58 s
  let (min, s) ← scanUint 2 0 59 s
  let s ← scanByte 58 s
  let (sec, s) ← scanUint 2 0 59 s
  some (hour * 3600 + min * 60 + sec, s)

def parseRFC3339 (s : Bytes) : Option Time := do
  let (date, s) ← scanDate s
  let s ← scanByte 84 s
  let (secondOfDay, s) ← scanClock s
  let (frac, s) ← scanFrac s
  let offset ← parseZone s
  let seconds := date.days * 86400 + secondOfDay - offset
  some ⟨seconds * 1000000000 + parseNanoseconds frac, offset⟩

/-! ## Reading back -/

theorem natVal_rdropWhile_zero :
    natVal (s.rdropWhile (· = 48)) * 10 ^ (s.length - (s.rdropWhile (· = 48)).length)
      = natVal s := by
  induction s using List.reverseRecOn with
  | nil => rfl
  | append_singleton s b ih =>
    by_cases hb : b = 48
    · subst hb
      have hle : (s.rdropWhile (· = 48)).length ≤ s.length :=
        (List.rdropWhile_prefix _ _).length_le
      rw [rdropWhile_concat_pos _ _ _ (by simp), natVal_append, ← ih, length_append,
        length_singleton, Nat.sub_add_comm hle, pow_succ]
      simp [natVal, Nat.mul_assoc]
    · rw [rdropWhile_concat_neg _ _ _ (by simpa using hb)]
      simp

theorem parseNanoseconds_fraction {nanosecond : Nat} (h : nanosecond < 1000000000) :
    parseNanoseconds (Time.fraction nanosecond) = nanosecond := by
  have hlen : (pad 9 nanosecond).length = 9 := length_pad (by omega) (by omega)
  have hle : (Time.fraction nanosecond).length ≤ 9 := by
    rw [← hlen]
    exact (List.rdropWhile_prefix _ _).length_le
  have hval := natVal_rdropWhile_zero (pad 9 nanosecond)
  rw [hlen, natVal_pad] at hval
  rw [parseNanoseconds, take_of_length_le hle]
  exact hval

theorem isDigits_fraction (nanosecond : Nat) : IsDigits (Time.fraction nanosecond) := by
  intro b hb
  exact isDigits_pad 9 nanosecond b ((List.rdropWhile_prefix _ _).subset hb)

theorem head_zone : ∀ c ∈ (Time.zone offset).head?, isDigit c = false ∧ c ≠ 46 := by
  intro c hc
  unfold Time.zone at hc
  split at hc
  · cases hc
    decide
  · split at hc
    · cases hc
      decide
    · cases hc
      decide

/-- The times whose text says what they are. -/
structure Time.Regular (t : Time) : Prop where
  year_nonneg : 0 ≤ t.date.year
  year_le : t.date.year ≤ 9999
  minutes : t.offset % 60 = 0
  hours : t.offset.natAbs < 86400

theorem parseZone_signed {c : UInt8} {hr mm : Nat} (hc : c = 43 ∨ c = 45) (hhr : hr ≤ 23)
    (hmm : mm ≤ 59) :
    parseZone (c :: (pad 2 hr ++ 58 :: pad 2 mm))
      = some (if c = 45 then -((hr * 60 + mm) * 60 : Int) else (hr * 60 + mm) * 60) := by
  have hz : c ≠ 90 := by
    rcases hc with rfl | rfl <;> decide
  have hscan := scanUint_pad 2 0 23 (58 :: pad 2 mm) (by omega) (by omega) (Nat.zero_le hr) hhr
  have hscan' := scanUint_pad 2 0 59 [] (by omega) (by omega) (Nat.zero_le mm) hmm
  rw [append_nil] at hscan'
  simp [parseZone, hz, hc, hscan, hscan']

theorem parseZone_zone {offset : Int} (hmin : offset % 60 = 0) (hhours : offset.natAbs < 86400) :
    parseZone (Time.zone offset) = some offset := by
  unfold Time.zone
  by_cases h : offset = 0
  · rw [if_pos h, h]
    rfl
  · rw [if_neg h, parseZone_signed (by split <;> simp) (by omega) (by omega)]
    refine congrArg some ?_
    by_cases hneg : offset ≤ -60
    · rw [if_pos hneg, if_pos rfl]
      omega
    · rw [if_neg hneg, if_neg (by decide)]
      omega

theorem daysIn_le (month : Nat) (year : Int) : daysIn month year ≤ 31 := by
  unfold daysIn
  split
  · split <;> omega
  · omega

theorem scanDate_pad {date : Date} (h : date.Valid) (hy0 : 0 ≤ date.year) (hy : date.year ≤ 9999) :
    scanDate (pad 4 date.year.natAbs ++ 45 :: (pad 2 date.month ++ 45 :: (pad 2 date.day ++ s)))
      = some (date, s) := by
  obtain ⟨hm0, hm, hd0, hd⟩ := h
  have hyear : (date.year.natAbs : Int) = date.year := Int.natAbs_of_nonneg hy0
  have hday : date.day < 10 ^ 2 := lt_of_le_of_lt (hd.trans (daysIn_le _ _)) (by decide)
  have hmonth : date.month < 10 ^ 2 := lt_of_le_of_lt hm (by decide)
  unfold scanDate
  rw [scanUint_pad 4 0 9999 _ (by decide) (by omega) (Nat.zero_le _) (by omega)]
  simp only [bind_eq_bind, bind_some, scanByte_cons, hyear]
  rw [scanUint_pad 2 1 12 _ (by decide) hmonth hm0 hm]
  simp only [bind_some, scanByte_cons]
  rw [scanUint_pad 2 1 _ _ (by decide) hday hd0 hd]
  rfl

theorem scanClock_pad {sec : Nat} (h : sec < 86400) :
    scanClock (pad 2 (sec / 3600) ++ 58 :: (pad 2 (sec % 3600 / 60) ++ 58 ::
        (pad 2 (sec % 60) ++ s)))
      = some (sec, s) := by
  unfold scanClock
  rw [scanUint_pad 2 0 23 _ (by decide) (by omega) (Nat.zero_le _) (by omega)]
  simp only [bind_eq_bind, bind_some, scanByte_cons]
  rw [scanUint_pad 2 0 59 _ (by decide) (by omega) (Nat.zero_le _) (by omega)]
  simp only [bind_some, scanByte_cons]
  rw [scanUint_pad 2 0 59 _ (by decide) (by omega) (Nat.zero_le _) (by omega)]
  show some (sec / 3600 * 3600 + sec % 3600 / 60 * 60 + sec % 60, s) = some (sec, s)
  rw [show sec / 3600 * 3600 + sec % 3600 / 60 * 60 + sec % 60 = sec by omega]

theorem parseRFC3339_rfc3339 (h : t.Regular) : parseRFC3339 (t.rfc3339 true) = some t := by
  obtain ⟨hy0, hy, hmin, hhours⟩ := h
  have hsec : t.secondOfDay < 86400 := by
    unfold Time.secondOfDay
    omega
  have hnano : t.nanosecond < 1000000000 := by
    unfold Time.nanosecond
    omega
  have hvalid : t.date.Valid := Date.valid_ofDays _
  have hdays : t.date.days = t.seconds / 86400 := Date.days_ofDays _
  unfold parseRFC3339 Time.rfc3339 appendInt
  rw [if_neg (by omega), nil_append, if_pos rfl, scanDate_pad _ hvalid hy0 hy]
  simp only [bind_eq_bind, bind_some, scanByte_cons]
  rw [scanClock_pad _ hsec]
  simp only [bind_some]
  rw [scanFrac_fracText (isDigits_fraction t.nanosecond) (head_zone t.offset)]
  simp only [bind_some, parseZone_zone hmin hhours, hdays, parseNanoseconds_fraction hnano]
  refine congrArg some (congrArg₂ Time.mk ?_ rfl)
  unfold Time.secondOfDay Time.nanosecond Time.seconds
  omega

structure Time.SameText (t t' : Time) : Prop where
  text : t.rfc3339 true = t'.rfc3339 true
  eq_of_regular : t.Regular → t'.Regular → t = t'

theorem Time.sameText_of_text {t' : Time} (h : t.rfc3339 true = t'.rfc3339 true) :
    t.SameText t' := by
  refine ⟨h, fun ht ht' => ?_⟩
  have hread := parseRFC3339_rfc3339 ht
  rw [h, parseRFC3339_rfc3339 ht'] at hread
  exact (Option.some.inj hread).symm

theorem isAscii_of_isDigits {s : Bytes} (h : IsDigits s) : IsAscii s := by
  intro b hb
  have hdigit := h b hb
  simp only [isDigit, Bool.and_eq_true, decide_eq_true_eq] at hdigit
  omega

theorem isAscii_pad : IsAscii (pad width n) :=
  isAscii_of_isDigits (isDigits_pad width n)

theorem isAscii_fracText (nanosecond : Nat) : IsAscii (fracText (Time.fraction nanosecond)) := by
  unfold fracText
  split
  · exact isAscii_nil
  · exact isAscii_cons.mpr ⟨by decide, isAscii_of_isDigits (isDigits_fraction nanosecond)⟩

theorem isAscii_zone : IsAscii (Time.zone offset) := by
  unfold Time.zone
  split
  · decide
  · simp only [isAscii_append, isAscii_cons]
    exact ⟨by split <;> decide, isAscii_pad _ _, by decide, isAscii_pad _ _⟩

theorem isAscii_rfc3339 (nano : Bool) (t : Time) : IsAscii (t.rfc3339 nano) := by
  have hsign : IsAscii (if t.date.year < 0 then [45] else []) := by
    split <;> decide
  have hfrac : IsAscii (if nano then fracText (Time.fraction t.nanosecond) else []) := by
    split
    · exact isAscii_fracText _
    · exact isAscii_nil
  simp only [Time.rfc3339, appendInt, isAscii_append, isAscii_cons]
  exact ⟨⟨hsign, isAscii_pad _ _⟩, by decide, isAscii_pad _ _, by decide, isAscii_pad _ _,
    by decide, isAscii_pad _ _, by decide, isAscii_pad _ _, by decide, isAscii_pad _ _, hfrac,
    isAscii_zone _⟩

example : (Time.mk 951827696123000000 3600).rfc3339 true = "2000-02-29T13:34:56.123+01:00" := by
  decide +kernel

end Go
