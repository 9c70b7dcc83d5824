import TptIdentity.GoText

/-!
# JSON strings

A string is written rune by rune (`escapeRune`) and read in two steps, `lexString` and
`unquote`. One step of the lexer inverts one step of the writer, so a string is read back up to
coercion to UTF-8 (`unquote_map_token`).
-/

namespace Go

open List Option

/-- One step of the lexer: a character standing for itself, an ill-formed byte, a two-character
escape, a `\u` escape. -/
inductive StrUnit where
  | rune (r : Nat)
  | bad
  | esc (b : UInt8)
  | u (code : Nat)
deriving DecidableEq, Repr

/-! ## Writing -/

def uEscape (code : Nat) : Bytes :=
  [92, 117, hexDigit (code / 4096 % 16), hexDigit (code / 256 % 16), hexDigit (code / 16 % 16),
    hexDigit (code % 16)]

def escLetter (r : Nat) : Option UInt8 :=
  if r = 34 then some 34
  else if r = 92 then some 92
  else if r = 8 then some 98
  else if r = 12 then some 102
  else if r = 10 then some 110
  else if r = 13 then some 114
  else if r = 9 then some 116
  else none

def isUEscaped (r : Nat) : Bool := r < 32 || [38, 60, 62, 0x2028, 0x2029].contains r

def escapeRune : Option Nat → Bytes
  | none => uEscape runeError
  | some r =>
    match escLetter r with
    | some c => [92, c]
    | none => if isUEscaped r then uEscape r else encodeRune r

def encodeString (s : Bytes) : Bytes := 34 :: ((runes s).flatMap escapeRune ++ [34])

/-! ## Reading -/

def lexHex4 : Bytes → Option (Nat × Bytes)
  | a :: b :: c :: d :: s => do
    return (((← hexVal a) * 16 + (← hexVal b)) * 256 + (← hexVal c) * 16 + (← hexVal d), s)
  | _ => none

def escValue (c : UInt8) : Option UInt8 :=
  if c = 34 ∨ c = 92 ∨ c = 47 then some c
  else if c = 98 then some 8
  else if c = 102 then some 12
  else if c = 110 then some 10
  else if c = 114 then some 13
  else if c = 116 then some 9
  else none

def lexUnit : Bytes → Option (StrUnit × Bytes)
  | [] => none
  | c :: s =>
    if c = 92 then
      match s with
      | [] => none
      | e :: s =>
        if e = 117 then (lexHex4 s).map fun p => (.u p.1, p.2)
        else (escValue e).map fun b => (.esc b, s)
    else if c = 34 ∨ c.toNat < 32 then none
    else if decodeRune (c :: s) = (runeError, 1) then some (.bad, s)
    else some (.rune (decodeRune (c :: s)).1, (c :: s).drop (decodeRune (c :: s)).2)

def lexString : Nat → Bytes → Option (List StrUnit × Bytes)
  | 0, _ => none
  | _, [] => none
  | fuel + 1, c :: s =>
    if c = 34 then some ([], s)
    else do
      let (unit, s) ← lexUnit (c :: s)
      let (units, s) ← lexString fuel s
      return (unit :: units, s)

def isPair (a b : Nat) : Bool :=
  0xD800 ≤ a && a < 0xDC00 && 0xDC00 ≤ b && b < 0xE000

/-- An escaped surrogate pair is one rune; any other surrogate comes out as U+FFFD. -/
def unquote : List StrUnit → Bytes
  | [] => []
  | .u a :: .u b :: us =>
    if isPair a b then encodeRune (0x10000 + (a - 0xD800) * 1024 + (b - 0xDC00)) ++ unquote us
    else encodeRune a ++ unquote (.u b :: us)
  | .u a :: us => encodeRune a ++ unquote us
  | .rune r :: us => encodeRune r ++ unquote us
  | .bad :: us => encodeRune runeError ++ unquote us
  | .esc b :: us => b :: unquote us

/-! ## One step -/

def token : Option Nat → StrUnit
  | none => .u runeError
  | some r =>
    match escLetter r with
    | some _ => .esc (UInt8.ofNat r)
    | none => if isUEscaped r then .u r else .rune r

theorem lexUnit_uEscape {code : Nat} (h : code < 65536) (s : Bytes) :
    lexUnit (uEscape code ++ s) = some (.u code, s) := by
  have h1 := hexVal_hexDigit (code / 4096 % 16) (by omega)
  have h2 := hexVal_hexDigit (code / 256 % 16) (by omega)
  have h3 := hexVal_hexDigit (code / 16 % 16) (by omega)
  have h4 := hexVal_hexDigit (code % 16) (by omega)
  have hcode : ((code / 4096 % 16) * 16 + code / 256 % 16) * 256 + (code / 16 % 16) * 16
      + code % 16 = code := by omega
  simp [uEscape, lexUnit, lexHex4, h1, h2, h3, h4, hcode]

variable {r : Nat}

theorem escLetter_eq_some {c : UInt8} (h : escLetter r = some c) :
    c ≠ 117 ∧ escValue c = some (UInt8.ofNat r) ∧ r < 128 := by
  unfold escLetter at h
  repeat' split at h
  all_goals first
    | (obtain rfl := some.inj h; subst_vars; decide)
    | cases h

theorem escLetter_eq_none (h : escLetter r = none) : r ≠ 34 ∧ r ≠ 92 := by
  refine ⟨?_, ?_⟩
  all_goals
    rintro rfl
    revert h
    decide

theorem isUEscaped_lt (h : isUEscaped r) : r < 65536 ∧ IsScalar r ∧ r ≠ runeError := by
  simp only [isUEscaped, Bool.or_eq_true, decide_eq_true_eq, contains_iff_mem, mem_cons,
    not_mem_nil, or_false] at h
  unfold IsScalar runeError
  omega

theorem lexUnit_encodeRune (hr : IsScalar r) (h34 : r ≠ 34) (h92 : r ≠ 92) (h32 : 32 ≤ r)
    (s : Bytes) : lexUnit (encodeRune r ++ s) = some (.rune r, s) := by
  obtain ⟨c, t, hc, hhead, -⟩ := encodeRune_eq_cons r
  have hd := decodeRune_encodeRune hr s
  have hne := decodeRune_encodeRune_ne hr s
  have hdrop : (encodeRune r ++ s).drop (encodeRune r).length = s := by simp
  rw [hc, cons_append] at hd hne hdrop ⊢
  have hc92 : c ≠ 92 := by
    rintro rfl
    simp at hhead
    omega
  have hc34 : ¬(c = 34 ∨ c.toNat < 32) := by
    rintro (rfl | hlt)
    · simp at hhead
      omega
    · omega
  unfold lexUnit
  simp only [if_neg hc92, if_neg hc34, if_neg hne]
  rw [hd, hdrop]

theorem lexUnit_escapeRune {u : Option Nat} (hu : ∀ r, u = some r → IsScalar r) (s : Bytes) :
    lexUnit (escapeRune u ++ s) = some (token u, s) := by
  cases u with
  | none => exact lexUnit_uEscape (by decide) s
  | some r =>
    cases hesc : escLetter r with
    | some c =>
      obtain ⟨hc, hval, -⟩ := escLetter_eq_some hesc
      simp [escapeRune, token, hesc, lexUnit, hc, hval]
    | none =>
      by_cases hue : isUEscaped r
      · have := lexUnit_uEscape (isUEscaped_lt hue).1 s
        simpa [escapeRune, token, hesc, hue] using this
      · obtain ⟨h34, h92⟩ := escLetter_eq_none hesc
        have h32 : 32 ≤ r := by
          simp [isUEscaped] at hue
          exact hue.1
        have := lexUnit_encodeRune (hu r rfl) h34 h92 h32 s
        simpa [escapeRune, token, hesc, hue] using this

theorem escapeRune_head {u : Option Nat} (hu : ∀ r, u = some r → IsScalar r) :
    ∃ c t, escapeRune u = c :: t ∧ c ≠ 34 := by
  have hlex := lexUnit_escapeRune hu []
  cases h : escapeRune u with
  | nil => rw [h] at hlex; cases hlex
  | cons c t =>
    refine ⟨c, t, rfl, ?_⟩
    rintro rfl
    rw [h] at hlex
    simp [lexUnit] at hlex

/-! ## Whole strings -/

theorem lexString_flatMap : ∀ {us : List (Option Nat)} {fuel : Nat} {s : Bytes},
    (∀ u ∈ us, ∀ r, u = some r → IsScalar r) → us.length < fuel →
    lexString fuel (us.flatMap escapeRune ++ 34 :: s) = some (us.map token, s)
  | [], fuel + 1, s, _, _ => by simp [lexString]
  | u :: us, fuel + 1, s, hu, hfuel => by
    have hu0 := hu u mem_cons_self
    have ih := @lexString_flatMap us fuel s
      (fun v hv => hu v (mem_cons_of_mem _ hv)) (by simpa using hfuel)
    have hlex := lexUnit_escapeRune hu0 (us.flatMap escapeRune ++ 34 :: s)
    obtain ⟨c, t, hc, hc34⟩ := escapeRune_head hu0
    rw [flatMap_cons, append_assoc]
    rw [hc, cons_append] at hlex ⊢
    rw [lexString, if_neg hc34, hlex]
    simp [ih]

theorem length_le_flatMap_escapeRune : ∀ {us : List (Option Nat)},
    (∀ u ∈ us, ∀ r, u = some r → IsScalar r) → us.length ≤ (us.flatMap escapeRune).length
  | [], _ => by simp
  | u :: us, hu => by
    have ih := length_le_flatMap_escapeRune fun v hv => hu v (mem_cons_of_mem _ hv)
    obtain ⟨c, t, hc, -⟩ := escapeRune_head (hu u mem_cons_self)
    simp only [flatMap_cons, length_append, length_cons, hc]
    omega

theorem scalar_of_mem_runes (s : Bytes) : ∀ u ∈ runes s, ∀ r, u = some r → IsScalar r := by
  rintro u hu r rfl
  exact isScalar_of_mem_runes s r hu

theorem lexString_encodeString (s t : Bytes) (fuel : Nat)
    (hfuel : (encodeString s).length ≤ fuel + 1) :
    lexString fuel (((runes s).flatMap escapeRune ++ [34]) ++ t)
      = some ((runes s).map token, t) := by
  have hscalar := scalar_of_mem_runes s
  have hlen := length_le_flatMap_escapeRune hscalar
  simp only [encodeString, length_cons, length_append, length_nil] at hfuel
  rw [append_assoc]
  exact lexString_flatMap hscalar (by omega)

theorem unquote_map_token : ∀ {us : List (Option Nat)}, (∀ u ∈ us, ∀ r, u = some r → IsScalar r) →
    unquote (us.map token) = us.flatMap fun u => encodeRune (u.getD runeError)
  | [], _ => rfl
  | u :: us, hu => by
    have ih := unquote_map_token fun v hv => hu v (mem_cons_of_mem _ hv)
    have hstep : ∀ a, token u = .u a → ¬(0xD800 ≤ a ∧ a < 0xDC00) →
        encodeRune a = encodeRune (u.getD runeError) →
        unquote (token u :: us.map token)
          = encodeRune (u.getD runeError) ++ unquote (us.map token) := by
      intro a ha hpair henc
      rw [ha, ← henc]
      cases us.map token with
      | nil => rfl
      | cons v vs =>
        cases v with
        | u b =>
          have : isPair a b = false := by
            simp only [isPair, Bool.and_eq_false_iff, decide_eq_false_iff_not]
            omega
          simp [unquote, this]
        | rune r => rfl
        | bad => rfl
        | esc b => rfl
    rw [map_cons, flatMap_cons, ← ih]
    cases u with
    | none => exact hstep runeError rfl (by decide) rfl
    | some r =>
      cases hesc : escLetter r with
      | some c =>
        obtain ⟨-, -, hlt⟩ := escLetter_eq_some hesc
        simp [token, hesc, unquote, encodeRune, hlt]
      | none =>
        by_cases hue : isUEscaped r
        · refine hstep r (by simp [token, hesc, hue]) ?_ rfl
          have := (isUEscaped_lt hue).2.1
          unfold IsScalar at this
          omega
        · simp [token, hesc, hue, unquote]

theorem unquote_runes (s : Bytes) : unquote ((runes s).map token) = coerce s :=
  unquote_map_token (scalar_of_mem_runes s)

/-! ## Decoded strings are valid UTF-8 -/

def StrUnit.Ok : StrUnit → Prop
  | .esc b => b.toNat < 128
  | _ => True

theorem escValue_lt {c b : UInt8} (h : escValue c = some b) : b.toNat < 128 := by
  unfold escValue at h
  split at h
  · next hc =>
    obtain rfl := some.inj h
    rcases hc with rfl | rfl | rfl <;> decide
  · repeat' split at h
    all_goals first
      | (obtain rfl := some.inj h; decide)
      | cases h

theorem ok_of_lexUnit {s t : Bytes} {unit : StrUnit} (h : lexUnit s = some (unit, t)) :
    unit.Ok := by
  unfold lexUnit at h
  split at h
  · cases h
  split at h
  · split at h
    · cases h
    split at h
    · obtain ⟨p, -, hp⟩ := map_eq_some_iff.mp h
      obtain ⟨rfl, -⟩ := Prod.mk.inj hp
      trivial
    · obtain ⟨b, hb, hp⟩ := map_eq_some_iff.mp h
      obtain ⟨rfl, -⟩ := Prod.mk.inj hp
      exact escValue_lt hb
  split at h
  · cases h
  split at h
  all_goals
    obtain ⟨rfl, -⟩ := Prod.mk.inj (some.inj h)
    trivial

theorem ok_of_lexString : ∀ {fuel : Nat} {s t : Bytes} {units : List StrUnit},
    lexString fuel s = some (units, t) → ∀ unit ∈ units, unit.Ok
  | fuel + 1, c :: s, t, units, h => by
    unfold lexString at h
    split at h
    · obtain ⟨rfl, -⟩ := Prod.mk.inj (some.inj h)
      simp
    · simp only [bind_eq_bind, bind_eq_some_iff] at h
      obtain ⟨⟨unit, s'⟩, hunit, ⟨us, s''⟩, hus, heq⟩ := h
      obtain ⟨rfl, -⟩ := Prod.mk.inj (some.inj heq)
      exact List.forall_mem_cons.mpr ⟨ok_of_lexUnit hunit, ok_of_lexString hus⟩

theorem validUtf8_unquote {units : List StrUnit} (h : ∀ unit ∈ units, unit.Ok) :
    validUtf8 (unquote units) := by
  fun_induction unquote units with
  | case1 => rfl
  | case2 a b us hpair ih =>
    rw [validUtf8_encodeRune_append]
    exact ih (List.forall_mem_cons.mp (List.forall_mem_cons.mp h).2).2
  | case3 _ _ _ _ ih | case4 _ _ _ ih | case5 _ _ ih | case6 _ ih =>
    rw [validUtf8_encodeRune_append]
    exact ih (List.forall_mem_cons.mp h).2
  | case7 b us ih =>
    have hb : b.toNat < 128 := h (.esc b) mem_cons_self
    rw [← singleton_append, ← encodeRune_ascii hb, validUtf8_encodeRune_append]
    exact ih (List.forall_mem_cons.mp h).2

/-! ## The text determines the runes -/

def untoken : StrUnit → Option Nat
  | .u a => if a = runeError then none else some a
  | .rune r => some r
  | .esc b => some b.toNat
  | .bad => none

theorem untoken_token (u : Option Nat) : untoken (token u) = u := by
  cases u with
  | none => rfl
  | some r =>
    cases hesc : escLetter r with
    | some c =>
      have hlt := (escLetter_eq_some hesc).2.2
      have hr : r % 256 = r := by omega
      simp [token, hesc, untoken, hr]
    | none =>
      by_cases hue : isUEscaped r
      · simp [token, hesc, hue, untoken, (isUEscaped_lt hue).2.2]
      · simp [token, hesc, hue, untoken]

theorem token_injective : Function.Injective token :=
  Function.LeftInverse.injective untoken_token

theorem encodeString_inj {s t x y : Bytes} (h : encodeString s ++ x = encodeString t ++ y) :
    runes s = runes t ∧ x = y := by
  simp only [encodeString, cons_append, List.cons.injEq, true_and] at h
  have h1 := lexString_encodeString s x ((encodeString s).length + (encodeString t).length)
    (by omega)
  have h2 := lexString_encodeString t y ((encodeString s).length + (encodeString t).length)
    (by omega)
  rw [h, h2] at h1
  obtain ⟨hmap, hxy⟩ := Prod.mk.inj (some.inj h1)
  exact ⟨(List.map_injective_iff.mpr token_injective hmap).symm, hxy.symm⟩

end Go
