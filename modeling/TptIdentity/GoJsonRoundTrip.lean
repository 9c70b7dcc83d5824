import TptIdentity.GoJson

/-!
# Reading back what was written

`Value.wire` is the syntax tree of the text of a value. The parser finds it at the head of any
continuation (`parseValue_text`), so decoding a text is a function of the value
(`decodeAny_text`).
-/

namespace Go

open List Option

/-! ## The syntax tree of a written value -/

mutual

def Value.wire : Value → Json
  | .null => .null
  | .bool b => .bool b
  | .num f => .num f.decimal (wholeLiteral (formatFloat f))
  | .int i => .num ⟨i < 0, i.natAbs, 0⟩ true
  | .str s => .str (coerce s)
  | .arr l => .arr (wireElems l)
  | .obj m => .obj (wireMembers m)
  | .unsupported _ => .null

def wireElems : List Value → List Json
  | [] => []
  | v :: l => v.wire :: wireElems l

def wireMembers : List (Bytes × Value) → List (Bytes × Json)
  | [] => []
  | (k, v) :: m => (coerce k, v.wire) :: wireMembers m

end

mutual

def Value.depth : Value → Nat
  | .arr l => elemsDepth l + 1
  | .obj m => membersDepth m + 1
  | _ => 0

def elemsDepth : List Value → Nat
  | [] => 0
  | v :: l => max v.depth (elemsDepth l)

def membersDepth : List (Bytes × Value) → Nat
  | [] => 0
  | (_, v) :: m => max v.depth (membersDepth m)

end

/-! ## Single bytes -/

variable {b c : UInt8} {s : Bytes} {j : Json}

theorem skipSpace_cons (h : isSpace b = false) (s : Bytes) : skipSpace (b :: s) = b :: s := by
  simp [skipSpace, h]

theorem expect_cons (h : isSpace b = false) (c : UInt8) (s : Bytes) :
    expect c (b :: s) = if b = c then some s else none := by
  rw [expect, skipSpace_cons h]

theorem expect_self (h : isSpace c = false) (s : Bytes) : expect c (c :: s) = some s := by
  rw [expect_cons h, if_pos rfl]

theorem expect_ne (h : isSpace b = false) (hne : b ≠ c) (s : Bytes) : expect c (b :: s) = none := by
  rw [expect_cons h, if_neg hne]

theorem endsNumber_cons (h : isDigit c = false ∧ c ≠ 46 ∧ c ≠ 101 ∧ c ≠ 69)
    (s : Bytes) : EndsNumber (c :: s) := by
  intro b hb
  obtain rfl : c = b := by simpa using hb
  exact h

variable {v : Value}

theorem number_head (h : c = 45 ∨ isDigit c) :
    (c ≠ 110 ∧ c ≠ 116 ∧ c ≠ 102 ∧ c ≠ 34 ∧ c ≠ 91 ∧ c ≠ 123) ∧ isSpace c = false ∧ c ≠ 93 := by
  rcases h with rfl | h
  · decide
  · simp only [isDigit, Bool.and_eq_true, decide_eq_true_eq] at h
    simp only [isSpace, ne_eq, ← UInt8.toNat_inj, Bool.or_eq_false_iff, decide_eq_false_iff_not]
    simp only [UInt8.reduceToNat] at h ⊢
    omega

theorem text_head (h : v.supported) : ∃ c t, v.text = c :: t ∧ isSpace c = false ∧ c ≠ 93 := by
  cases v with
  | null => exact ⟨110, _, rfl, by decide⟩
  | bool b => cases b with
    | true => exact ⟨116, _, rfl, by decide⟩
    | false => exact ⟨102, _, rfl, by decide⟩
  | num f =>
    obtain ⟨c, t, hc, hhead⟩ := formatFloat_head f
    exact ⟨c, t, hc, (number_head hhead).2⟩
  | int i =>
    obtain ⟨c, t, hc, hhead⟩ := itoa_head i
    exact ⟨c, t, hc, (number_head hhead).2⟩
  | str s => exact ⟨34, _, rfl, by decide⟩
  | arr l => cases l with
    | nil => exact ⟨91, _, rfl, by decide⟩
    | cons v l => exact ⟨91, _, rfl, by decide⟩
  | obj m => cases m with
    | nil => exact ⟨123, _, rfl, by decide⟩
    | cons e m => exact ⟨123, _, rfl, by decide⟩
  | unsupported k => cases h

theorem wholeLiteral_itoa (i : Int) : wholeLiteral (itoa i) = true := by
  have hdigits : ∀ c ∈ utoa i.natAbs, (c ≠ 46 && c ≠ 69 && c ≠ 101) = true := by
    intro c hc
    have hdigit := isDigits_utoa _ c hc
    refine by_contra fun hno => ?_
    simp only [Bool.and_eq_true, decide_eq_true_eq, not_and_or, not_not] at hno
    rcases hno with (rfl | rfl) | rfl <;> cases hdigit
  unfold wholeLiteral itoa
  split
  · exact all_eq_true.mpr (forall_mem_cons.mpr ⟨rfl, hdigits⟩)
  · exact all_eq_true.mpr hdigits

variable {l : List Value} {m : List (Bytes × Value)} {w : Value} (fuel : Nat)

theorem parseValue_number {t : Bytes} {d : Decimal} (depth : Nat) (hc : c = 45 ∨ isDigit c)
    (hscan : scanNumber ((c :: t) ++ s) = some (d, s)) :
    parseValue (fuel + 1) depth ((c :: t) ++ s) = some (.num d (wholeLiteral (c :: t)), s) := by
  obtain ⟨⟨h1, h2, h3, h4, h5, h6⟩, hsp, -⟩ := number_head hc
  have htake : ((c :: t) ++ s).take (((c :: t) ++ s).length - s.length) = c :: t := by
    rw [length_append, Nat.add_sub_cancel, take_left]
  rw [cons_append] at hscan htake ⊢
  rw [parseValue, skipSpace_cons hsp]
  simp only [h1, h2, h3, h4, h5, h6, hscan, htake, if_false, map_some]

theorem lexString_written (k s : Bytes) :
    lexString ((runes k).flatMap escapeRune ++ [34] ++ s).length
        ((runes k).flatMap escapeRune ++ [34] ++ s)
      = some ((runes k).map token, s) :=
  lexString_encodeString k s _ (by simp [encodeString])

theorem parseValue_string (depth : Nat) (k s : Bytes) :
    parseValue (fuel + 1) depth (encodeString k ++ s) = some (.str (coerce k), s) := by
  rw [encodeString, cons_append, parseValue, skipSpace_cons (by decide)]
  simp only [↓reduceIte, lexString_written, map_some, unquote_runes]
  rfl

/-! ## The parser on a written value -/

mutual

theorem parseValue_text : ∀ (v : Value) (fuel depth : Nat) (s : Bytes), v.supported →
    2 * v.text.length ≤ fuel → EndsNumber s →
    parseValue fuel depth (v.text ++ s) = if v.depth ≤ depth then some (v.wire, s) else none
  | v, 0, _, _, hv, hfuel, _ => by
    obtain ⟨c, t, hc, -⟩ := text_head hv
    rw [hc, length_cons] at hfuel
    omega
  | .null, fuel + 1, depth, s, _, _, _ => (if_pos (Nat.zero_le _)).symm
  | .bool true, fuel + 1, depth, s, _, _, _ => (if_pos (Nat.zero_le _)).symm
  | .bool false, fuel + 1, depth, s, _, _, _ => (if_pos (Nat.zero_le _)).symm
  | .num f, fuel + 1, depth, s, _, _, hs => by
    obtain ⟨c, t, hc, hhead⟩ := formatFloat_head f
    have hscan := scanNumber_formatFloat f hs
    rw [Value.text, Value.wire, hc] at *
    exact (parseValue_number fuel depth hhead hscan).trans (if_pos (Nat.zero_le _)).symm
  | .int i, fuel + 1, depth, s, _, _, hs => by
    obtain ⟨c, t, hc, hhead⟩ := itoa_head i
    have hscan := scanNumber_itoa i hs
    have hwhole := wholeLiteral_itoa i
    rw [Value.text, Value.wire, ← hwhole, hc] at *
    exact (parseValue_number fuel depth hhead hscan).trans (if_pos (Nat.zero_le _)).symm
  | .str k, fuel + 1, depth, s, _, _, _ =>
    (parseValue_string fuel depth k s).trans (if_pos (Nat.zero_le _)).symm
  | .arr [], fuel + 1, 0, s, _, _, _ => rfl
  | .arr [], fuel + 1, depth + 1, s, _, _, _ => (if_pos (Nat.le_add_left ..)).symm
  | .arr (v :: l), fuel + 1, 0, s, _, _, _ => rfl
  | .arr (v :: l), fuel + 1, depth + 1, s, hv, hfuel, _ => by
    have hl : supportedElems (v :: l) := hv
    rw [supportedElems, Bool.and_eq_true] at hl
    simp only [Value.text, length_cons, length_append, length_nil] at hfuel
    have helems := parseElems_text v l fuel depth s hl (by simp only [length_append]; omega)
    obtain ⟨c, t, hc, hsp, h93⟩ := text_head hl.1
    have hnot : expect 93 (v.text ++ (elemsText l ++ 93 :: s)) = none := by
      rw [hc, cons_append, expect_ne hsp h93]
    rw [Value.text, cons_append, append_assoc, append_assoc, singleton_append,
      parseValue, skipSpace_cons (by decide)]
    simp only [hnot, helems, Value.wire, Value.depth, Nat.add_le_add_iff_right]
    by_cases hd : elemsDepth (v :: l) ≤ depth
    · simp [hd]
    · simp [hd]
  | .obj [], fuel + 1, 0, s, _, _, _ => rfl
  | .obj [], fuel + 1, depth + 1, s, _, _, _ => (if_pos (Nat.le_add_left ..)).symm
  | .obj ((k, v) :: m), fuel + 1, 0, s, _, _, _ => rfl
  | .obj ((k, v) :: m), fuel + 1, depth + 1, s, hv, hfuel, _ => by
    simp only [Value.text, length_cons, length_append, length_nil] at hfuel
    have hmembers := parseMembers_text k v m fuel depth s hv
      (by simp only [length_append, length_cons]; omega)
    have hnot : expect 125 (encodeString k ++ 58 :: (v.text ++ (membersText m ++ 125 :: s)))
        = none := by
      rw [encodeString, cons_append, expect_ne (by decide) (by decide)]
    rw [Value.text, cons_append, append_assoc, cons_append, append_assoc,
      append_assoc, singleton_append, parseValue, skipSpace_cons (by decide)]
    simp only [hnot, hmembers, Value.wire, Value.depth, Nat.add_le_add_iff_right]
    by_cases hd : membersDepth ((k, v) :: m) ≤ depth
    · simp [hd]
    · simp [hd]
  | .unsupported _, fuel + 1, _, _, hv, _, _ => by cases hv

theorem parseElems_text : ∀ (v : Value) (l : List Value) (fuel depth : Nat) (s : Bytes),
    v.supported ∧ supportedElems l → 2 * (v.text ++ elemsText l).length + 1 ≤ fuel →
    parseElems fuel depth (v.text ++ (elemsText l ++ 93 :: s))
      = if elemsDepth (v :: l) ≤ depth then some (wireElems (v :: l), s) else none
  | v, l, 0, _, _, _, hfuel => by omega
  | v, [], fuel + 1, depth, s, hv, hfuel => by
    simp only [elemsText, append_nil] at hfuel
    have hvalue := parseValue_text v fuel depth (93 :: s) hv.1 (by omega)
      (endsNumber_cons (by decide) s)
    have h44 : expect 44 (93 :: s) = none := expect_ne (by decide) (by decide) s
    have h93 : expect 93 (93 :: s) = some s := expect_self (by decide) s
    simp only [elemsText, nil_append, parseElems, hvalue, elemsDepth, Nat.max_zero]
    by_cases hd : v.depth ≤ depth
    · simp [hd, h44, h93, wireElems]
    · simp [hd]
  | v, w :: l, fuel + 1, depth, s, hv, hfuel => by
    simp only [supportedElems, Bool.and_eq_true] at hv
    simp only [elemsText, length_append, length_cons] at hfuel
    have hvalue := parseValue_text v fuel depth (44 :: (w.text ++ (elemsText l ++ 93 :: s)))
      hv.1 (by omega) (endsNumber_cons (by decide) _)
    have helems := parseElems_text w l fuel depth s hv.2 (by simp only [length_append]; omega)
    rw [elemsDepth]
    simp only [elemsText, cons_append, append_assoc, parseElems, hvalue, max_le_iff]
    by_cases hd : v.depth ≤ depth
    · simp only [hd, ↓reduceIte, true_and, bind_eq_bind, bind_some,
        expect_self (c := 44) (by decide), helems]
      split
      · rfl
      · rfl
    · simp [hd]

theorem parseMembers_text : ∀ (k : Bytes) (v : Value) (m : List (Bytes × Value))
    (fuel depth : Nat) (s : Bytes), supportedMembers ((k, v) :: m) →
    2 * (encodeString k ++ 58 :: (v.text ++ membersText m)).length + 1 ≤ fuel →
    parseMembers fuel depth (encodeString k ++ 58 :: (v.text ++ (membersText m ++ 125 :: s)))
      = if membersDepth ((k, v) :: m) ≤ depth then some (wireMembers ((k, v) :: m), s) else none
  | k, v, m, 0, _, _, _, hfuel => by omega
  | k, v, [], fuel + 1, depth, s, hv, hfuel => by
    simp only [supportedMembers, Bool.and_eq_true] at hv
    simp only [membersText, append_nil, length_append, length_cons] at hfuel
    have hvalue := parseValue_text v fuel depth (125 :: s) hv.1 (by omega)
      (endsNumber_cons (by decide) s)
    have h44 : expect 44 (125 :: s) = none := expect_ne (by decide) (by decide) s
    have h125 : expect 125 (125 :: s) = some s := expect_self (by decide) s
    simp only [membersText, nil_append, parseMembers, encodeString, cons_append,
      expect_self (c := 34) (by decide), expect_self (c := 58) (by decide),
      lexString_written, hvalue, bind_eq_bind, bind_some, unquote_runes, membersDepth, Nat.max_zero]
    by_cases hd : v.depth ≤ depth
    · simp [hd, h44, h125, wireMembers]
    · simp [hd]
  | k, v, (k', w) :: m, fuel + 1, depth, s, hv, hfuel => by
    simp only [supportedMembers, Bool.and_eq_true] at hv
    simp only [membersText, length_append, length_cons] at hfuel
    have hvalue := parseValue_text v fuel depth
      (44 :: (encodeString k' ++ 58 :: (w.text ++ (membersText m ++ 125 :: s))))
      hv.1 (by omega) (endsNumber_cons (by decide) _)
    have hmembers := parseMembers_text k' w m fuel depth s
      (by simp only [supportedMembers, Bool.and_eq_true]; exact hv.2)
      (by simp only [length_append, length_cons]; omega)
    have htext : membersText ((k', w) :: m) ++ 125 :: s
        = 44 :: (encodeString k' ++ 58 :: (w.text ++ (membersText m ++ 125 :: s))) := by
      simp [membersText]
    rw [htext, membersDepth]
    conv_lhs => rw [encodeString]
    simp only [parseMembers, cons_append, expect_self (c := 34) (by decide),
      expect_self (c := 58) (by decide), lexString_written, hvalue,
      bind_eq_bind, bind_some, unquote_runes, max_le_iff]
    by_cases hd : v.depth ≤ depth
    · simp only [hd, ↓reduceIte, true_and, bind_some, expect_self (c := 44) (by decide), hmembers]
      split
      · rfl
      · rfl
    · simp [hd]

end

/-! ## What the parser yields -/

inductive Json.Ok : Nat → Json → Prop where
  | null {d : Nat} : Ok d .null
  | bool {d : Nat} {b : Bool} : Ok d (.bool b)
  | num {d : Nat} {n : Decimal} {whole : Bool} : Ok d (.num n whole)
  | str {d : Nat} {s : Bytes} (h : validUtf8 s = true) : Ok d (.str s)
  | arr {d : Nat} {l : List Json} (h : ∀ v ∈ l, Ok d v) : Ok (d + 1) (.arr l)
  | obj {d : Nat} {m : List (Bytes × Json)} (hk : ∀ e ∈ m, validUtf8 e.1 = true)
      (h : ∀ e ∈ m, Ok d e.2) : Ok (d + 1) (.obj m)

theorem parse_ok : ∀ fuel : Nat,
    (∀ depth s v rest, parseValue fuel depth s = some (v, rest) → v.Ok depth)
      ∧ (∀ depth s l rest, parseElems fuel depth s = some (l, rest) → ∀ v ∈ l, v.Ok depth)
      ∧ (∀ depth s m rest, parseMembers fuel depth s = some (m, rest) →
          ∀ e ∈ m, validUtf8 e.1 ∧ e.2.Ok depth)
  | 0 => by
    refine ⟨?_, ?_, ?_⟩
    all_goals
      intro _ _ _ _ h
      cases h
  | fuel + 1 => by
    obtain ⟨ihv, ihe, ihm⟩ := parse_ok fuel
    refine ⟨?_, ?_, ?_⟩
    · intro depth s v rest h
      rw [parseValue] at h
      repeat' split at h
      all_goals simp only [reduceCtorEq, some.injEq, Prod.mk.injEq, map_eq_some_iff]
        at h
      · obtain ⟨_, -, rfl, -⟩ := h
        exact .null
      · obtain ⟨_, -, rfl, -⟩ := h
        exact .bool
      · obtain ⟨_, -, rfl, -⟩ := h
        exact .bool
      · obtain ⟨p, hp, rfl, -⟩ := h
        exact .str (validUtf8_unquote (ok_of_lexString hp))
      · obtain ⟨rfl, -⟩ := h
        exact .arr (by simp)
      · obtain ⟨p, hp, rfl, -⟩ := h
        exact .arr (ihe _ _ _ _ hp)
      · obtain ⟨rfl, -⟩ := h
        exact .obj (by simp) (by simp)
      · obtain ⟨p, hp, rfl, -⟩ := h
        exact .obj (fun e he => (ihm _ _ _ _ hp e he).1) fun e he => (ihm _ _ _ _ hp e he).2
      · obtain ⟨_, -, rfl, -⟩ := h
        exact .num
    · intro depth s l rest h
      simp only [parseElems, bind_eq_bind, bind_eq_some_iff] at h
      obtain ⟨⟨v, t⟩, hv, h⟩ := h
      have hv := ihv _ _ _ _ hv
      split at h
      · obtain ⟨⟨l', _⟩, hl', heq⟩ := bind_eq_some_iff.mp h
        obtain ⟨rfl, -⟩ := Prod.mk.inj (some.inj heq)
        exact forall_mem_cons.mpr ⟨hv, ihe _ _ _ _ hl'⟩
      · obtain ⟨_, -, heq⟩ := bind_eq_some_iff.mp h
        obtain ⟨rfl, -⟩ := Prod.mk.inj (some.inj heq)
        exact forall_mem_singleton.mpr hv
    · intro depth s m rest h
      simp only [parseMembers, bind_eq_bind, bind_eq_some_iff] at h
      obtain ⟨_, -, ⟨units, _⟩, hu, _, -, ⟨v, t⟩, hv, h⟩ := h
      have hmember : validUtf8 (unquote units) ∧ v.Ok depth :=
        ⟨validUtf8_unquote (ok_of_lexString hu), ihv _ _ _ _ hv⟩
      split at h
      · obtain ⟨⟨m', _⟩, hm', heq⟩ := bind_eq_some_iff.mp h
        obtain ⟨rfl, -⟩ := Prod.mk.inj (some.inj heq)
        exact forall_mem_cons.mpr ⟨hmember, ihm _ _ _ _ hm'⟩
      · obtain ⟨_, -, heq⟩ := bind_eq_some_iff.mp h
        obtain ⟨rfl, -⟩ := Prod.mk.inj (some.inj heq)
        exact forall_mem_singleton.mpr hmember

/-! ## Element lists -/

theorem supportedElems_iff : supportedElems l ↔ ∀ v ∈ l, v.supported := by
  induction l with
  | nil => simp [supportedElems]
  | cons v l ih => simp [supportedElems, ih]

theorem supportedMembers_iff : supportedMembers m ↔ ∀ e ∈ m, e.2.supported := by
  induction m with
  | nil => simp [supportedMembers]
  | cons e m ih => simp only [supportedMembers, ih, Bool.and_eq_true, forall_mem_cons]

variable {d : Nat}

theorem elemsDepth_le : elemsDepth l ≤ d ↔ ∀ v ∈ l, v.depth ≤ d := by
  induction l with
  | nil => simp [elemsDepth]
  | cons v l ih => simp [elemsDepth, ih]

theorem membersDepth_le : membersDepth m ≤ d ↔ ∀ e ∈ m, e.2.depth ≤ d := by
  induction m with
  | nil => simp [membersDepth]
  | cons e m ih => simp only [membersDepth, max_le_iff, ih, forall_mem_cons]

theorem wireElems_eq (l : List Value) : wireElems l = l.map Value.wire := by
  induction l with
  | nil => rfl
  | cons v l ih => rw [wireElems, ih, map_cons]

theorem wireMembers_eq (m : List (Bytes × Value)) :
    wireMembers m = m.map fun e => (coerce e.1, e.2.wire) := by
  induction m with
  | nil => rfl
  | cons e m ih => rw [wireMembers, ih, map_cons]

theorem elemsToAny_eq_some {l : List Json} {l' : List Value} :
    elemsToAny l = some l' ↔ Forall₂ (fun j v => j.toAny = some v) l l' := by
  induction l generalizing l' with
  | nil => simp [elemsToAny, eq_comm]
  | cons j l ih =>
    simp only [elemsToAny, bind_eq_bind, bind_eq_some_iff, forall₂_cons_left_iff,
      Option.pure_def, Option.some.injEq, ih]
    constructor
    · rintro ⟨v, hv, l', hl', rfl⟩
      exact ⟨v, l', hv, hl', rfl⟩
    · rintro ⟨v, l', hv, hl', rfl⟩
      exact ⟨v, hv, l', hl', rfl⟩

theorem membersToAny_eq_some {m : List (Bytes × Json)} {m' : List (Bytes × Value)} :
    membersToAny m = some m'
      ↔ Forall₂ (fun e e' => e.1 = e'.1 ∧ e.2.toAny = some e'.2) m m' := by
  induction m generalizing m' with
  | nil => simp [membersToAny, eq_comm]
  | cons e m ih =>
    obtain ⟨k, j⟩ := e
    simp only [membersToAny, bind_eq_bind, bind_eq_some_iff,
      forall₂_cons_left_iff, Option.pure_def, Option.some.injEq, ih]
    constructor
    · rintro ⟨v, hv, m', hm', rfl⟩
      exact ⟨(k, v), m', ⟨rfl, hv⟩, hm', rfl⟩
    · rintro ⟨⟨k', v⟩, m', ⟨rfl, hv⟩, hm', rfl⟩
      exact ⟨v, hv, m', hm', rfl⟩

theorem exists_of_mem_forall₂ {α β : Type} {R : α → β → Prop} {l : List α} {l' : List β}
    (h : Forall₂ R l l') : ∀ b ∈ l', ∃ a ∈ l, R a b := by
  induction h with
  | nil => simp
  | cons hab _ ih =>
    intro b hb
    rcases mem_cons.mp hb with rfl | hb
    · exact ⟨_, mem_cons_self, hab⟩
    · obtain ⟨a, ha, hR⟩ := ih b hb
      exact ⟨a, mem_cons_of_mem _ ha, hR⟩

/-! ## Decoded values -/

inductive Decoded : Nat → Value → Prop where
  | null {d : Nat} : Decoded d .null
  | bool {d : Nat} {b : Bool} : Decoded d (.bool b)
  | num {d : Nat} {f : Float64} : Decoded d (.num f)
  | str {d : Nat} {s : Bytes} (h : validUtf8 s = true) : Decoded d (.str s)
  | arr {d : Nat} {l : List Value} (h : ∀ v ∈ l, Decoded d v) : Decoded (d + 1) (.arr l)
  | obj {d : Nat} {m : List (Bytes × Value)} (hs : KeysSorted m)
      (hk : ∀ e ∈ m, validUtf8 e.1 = true) (h : ∀ e ∈ m, Decoded d e.2) : Decoded (d + 1) (.obj m)

theorem Decoded.supported (h : Decoded d v) : v.supported := by
  induction h with
  | null | bool | num | str => rfl
  | arr h ih => exact supportedElems_iff.mpr ih
  | obj hs hk h ih => exact supportedMembers_iff.mpr ih

theorem Decoded.depth_le (h : Decoded d v) : v.depth ≤ d := by
  induction h with
  | null | bool | num | str => exact Nat.zero_le _
  | arr h ih => exact Nat.succ_le_succ (elemsDepth_le.mpr ih)
  | obj hs hk h ih => exact Nat.succ_le_succ (membersDepth_le.mpr ih)

theorem Decoded.toAny_wire (h : Decoded d v) : v.wire.toAny = some v := by
  induction h with
  | null | bool => rfl
  | num => simp [Value.wire, Json.toAny]
  | str h => simp [Value.wire, Json.toAny, coerce_eq_self h]
  | arr h ih =>
    have helems := elemsToAny_eq_some.mpr (forall₂_map_left_iff.mpr (forall₂_same.mpr ih))
    rw [Value.wire, wireElems_eq, Json.toAny, helems]
    rfl
  | @obj d m hs hk h ih =>
    have hmembers : membersToAny (m.map fun e => (coerce e.1, e.2.wire)) = some m :=
      membersToAny_eq_some.mpr (forall₂_map_left_iff.mpr
        (forall₂_same.mpr fun e he => ⟨coerce_eq_self (hk e he), ih e he⟩))
    rw [Value.wire, wireMembers_eq, Json.toAny, hmembers, map_some, assocOf_eq_self hs]

theorem decoded_of_toAny (hj : j.Ok d) (h : j.toAny = some v) : Decoded d v := by
  induction hj generalizing v with
  | null => cases h; exact .null
  | bool => cases h; exact .bool
  | num =>
    obtain ⟨f, -, rfl⟩ := map_eq_some_iff.mp h
    exact .num
  | str hs => cases h; exact .str hs
  | arr hl ih =>
    obtain ⟨l', hl', rfl⟩ := map_eq_some_iff.mp h
    refine .arr fun v hv => ?_
    obtain ⟨j, hj, hjv⟩ := exists_of_mem_forall₂ (elemsToAny_eq_some.mp hl') v hv
    exact ih j hj hjv
  | obj hk hm ih =>
    obtain ⟨m', hm', rfl⟩ := map_eq_some_iff.mp h
    have hmem := exists_of_mem_forall₂ (membersToAny_eq_some.mp hm')
    refine .obj (keysSorted_assocOf m') (fun e he => ?_) (fun e he => ?_)
    · obtain ⟨x, hx, hkey, -⟩ := hmem e (mem_of_mem_assocOf he)
      exact hkey ▸ hk x hx
    · obtain ⟨x, hx, -, hval⟩ := hmem e (mem_of_mem_assocOf he)
      exact ih x hx hval

theorem ok_of_parse (h : parse s = some j) : j.Ok maxNestingDepth := by
  simp only [parse, bind_eq_bind, bind_eq_some_iff] at h
  obtain ⟨⟨v, rest⟩, hv, h⟩ := h
  split at h
  · obtain rfl := some.inj h
    exact (parse_ok _).1 _ _ _ _ hv
  · cases h

theorem decoded_of_decodeAny (h : decodeAny s = some v) : Decoded maxNestingDepth v := by
  obtain ⟨j, hj, hv⟩ := bind_eq_some_iff.mp h
  exact decoded_of_toAny (ok_of_parse hj) hv

/-! ## Whole texts -/

theorem parse_text_eq (hv : v.supported) :
    parse v.text = if v.depth ≤ maxNestingDepth then some v.wire else none := by
  have h := parseValue_text v (2 * v.text.length + 2) maxNestingDepth [] hv (by omega)
    endsNumber_nil
  rw [append_nil] at h
  rw [parse, h]
  split
  · rfl
  · rfl

theorem parse_text (hv : v.supported) (hd : v.depth ≤ maxNestingDepth) :
    parse v.text = some v.wire := by
  rw [parse_text_eq hv, if_pos hd]

theorem eq_wire_of_parse_text (hv : v.supported) (h : parse v.text = some j) : j = v.wire := by
  rw [parse_text_eq hv] at h
  exact (some.inj (ite_none_right_eq_some.mp h).2).symm

theorem decodeAny_text (hv : Decoded d v) (hd : d ≤ maxNestingDepth) :
    decodeAny v.text = some v := by
  rw [decodeAny, parse_text hv.supported (hv.depth_le.trans hd), bind_some, hv.toAny_wire]

theorem marshal_eq_ok (h : v.supported) : marshal v = .ok v.text := by
  rw [marshal, if_pos h]

theorem wire_eq_of_text_eq (hv : v.supported) (hw : w.supported) (h : v.text = w.text) :
    v.wire = w.wire := by
  have h1 := parseValue_text v (2 * w.text.length) (max v.depth w.depth) [] hv (by rw [h])
    endsNumber_nil
  have h2 := parseValue_text w (2 * w.text.length) (max v.depth w.depth) [] hw le_rfl endsNumber_nil
  rw [if_pos (le_max_left ..), h] at h1
  rw [if_pos (le_max_right ..), h1] at h2
  exact (Prod.mk.inj (some.inj h2)).1

theorem Decoded.text_inj {d' : Nat} (hv : Decoded d v) (hw : Decoded d' w) (h : v.text = w.text) :
    v = w := by
  have hwire := wire_eq_of_text_eq hv.supported hw.supported h
  have h1 := hv.toAny_wire
  rw [hwire, hw.toAny_wire] at h1
  exact (some.inj h1).symm

end Go
