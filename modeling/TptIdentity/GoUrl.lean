import Mathlib.Data.List.TakeWhile
import TptIdentity.GoText

/-!
# Queries

The query of a URL, and `url.ParseQuery`: pieces between `&`, each cut at the first `=`, with
`%xx` and `+` undone on both sides; a piece that cannot be read is dropped. `Unescapes` says
which texts stand for a value.

`http.Redirect` writes the bytes outside ASCII as `%xx` (`hexEscapeNonASCII`). No separator is
written so, and reading a query undoes it (`parseQuery_hexEscape`, `rawQuery_hexEscape`).
-/

namespace Go

open List Option

/-! ## Unescaping -/

def queryUnescape : Bytes → Option Bytes
  | [] => some []
  | c :: s =>
    if c = 37 then
      match s with
      | x :: y :: s =>
        match hexVal x, hexVal y with
        | some m, some n => (queryUnescape s).map (UInt8.ofNat (16 * m + n) :: ·)
        | _, _ => none
      | _ => none
    else (queryUnescape s).map ((if c = 43 then 32 else c) :: ·)

inductive Unescapes : Bytes → Bytes → Prop where
  | nil : Unescapes [] []
  | byte {c : UInt8} {s v : Bytes} (hc : c ≠ 37) (h : Unescapes s v) :
      Unescapes (c :: s) ((if c = 43 then 32 else c) :: v)
  | escape {x y : UInt8} {m n : Nat} {s v : Bytes} (hx : hexVal x = some m) (hy : hexVal y = some n)
      (h : Unescapes s v) : Unescapes (37 :: x :: y :: s) (UInt8.ofNat (16 * m + n) :: v)

theorem unescapes_of_eq_some : ∀ {s v : Bytes}, queryUnescape s = some v → Unescapes s v
  | [], v, h => by
    obtain rfl := some.inj h
    exact .nil
  | c :: s, v, h => by
    unfold queryUnescape at h
    split at h
    · next hc =>
      subst hc
      split at h
      · split at h
        · next hx hy =>
          obtain ⟨v', hv', rfl⟩ := map_eq_some_iff.mp h
          exact .escape hx hy (unescapes_of_eq_some hv')
        · cases h
      · cases h
    · next hc =>
      obtain ⟨v', hv', rfl⟩ := map_eq_some_iff.mp h
      exact .byte hc (unescapes_of_eq_some hv')

variable {s v piece query key value r₁ r₂ name t : Bytes} {c : UInt8}

theorem queryUnescape_eq_some : queryUnescape s = some v ↔ Unescapes s v := by
  refine ⟨unescapes_of_eq_some, fun h => ?_⟩
  induction h with
  | nil => rfl
  | byte hc _ ih =>
    unfold queryUnescape
    rw [if_neg hc, ih]
    rfl
  | escape hx hy _ ih =>
    unfold queryUnescape
    rw [if_pos rfl]
    simp only [hx, hy, ih, map_some]

namespace Unescapes

theorem length_le (h : Unescapes s v) : v.length ≤ s.length := by
  induction h with
  | nil => exact Nat.le_refl _
  | byte _ _ ih => exact Nat.succ_le_succ ih
  | escape _ _ _ ih =>
    simp only [length_cons]
    omega

theorem self : ∀ {s : Bytes}, (∀ c ∈ s, c ≠ 37 ∧ c ≠ 43) → Unescapes s s
  | [], _ => .nil
  | c :: s, h => by
    obtain ⟨⟨hpercent, hplus⟩, hs⟩ := forall_mem_cons.mp h
    have hbyte := byte hpercent (self hs)
    rwa [if_neg hplus] at hbyte

theorem plain_of_eq (h : Unescapes s v) (hv : v = s) : ∀ c ∈ s, c ≠ 37 ∧ c ≠ 43 := by
  induction h with
  | nil => simp
  | byte hc _ ih =>
    obtain ⟨hhead, rfl⟩ := cons.inj hv
    refine forall_mem_cons.mpr ⟨⟨hc, ?_⟩, ih rfl⟩
    rintro rfl
    cases hhead
  | escape _ _ h _ =>
    have hle := h.length_le
    rw [(cons.inj hv).2] at hle
    simp only [length_cons] at hle
    omega

theorem of_append_question {r : Bytes} (h : Unescapes (s ++ 63 :: r) v) :
    ∃ a b, Unescapes s a ∧ v = a ++ 63 :: b := by
  generalize hw : s ++ 63 :: r = w at h
  induction h generalizing s with
  | nil => simp at hw
  | byte hc _ ih =>
    cases s with
    | nil =>
      obtain ⟨rfl, rfl⟩ := cons.inj hw
      exact ⟨[], _, .nil, rfl⟩
    | cons c' s =>
      obtain ⟨rfl, hw'⟩ := cons.inj hw
      obtain ⟨a, b, ha, rfl⟩ := ih hw'
      exact ⟨_, b, .byte hc ha, rfl⟩
  | escape hx hy _ ih =>
    rcases s with _ | ⟨c, _ | ⟨x', _ | ⟨y', s⟩⟩⟩ <;>
      simp only [nil_append, cons_append, cons.injEq] at hw
    · exact absurd hw.1 (by decide)
    · rw [← hw.2.1] at hx
      cases hx
    · rw [← hw.2.2.1] at hy
      cases hy
    · obtain ⟨rfl, rfl, rfl, hw⟩ := hw
      obtain ⟨a, b, ha, rfl⟩ := ih hw
      exact ⟨_, b, .escape hx hy ha, rfl⟩

end Unescapes

/-! ## Parameters -/

def parsePiece (piece : Bytes) : Option (Bytes × Bytes) :=
  if piece.isEmpty || piece.contains 59 then none
  else
    let kv := (cut 61 piece).getD (piece, [])
    (queryUnescape kv.1).bind fun key => (queryUnescape kv.2).map fun value => (key, value)

def parseQuery (query : Bytes) : List (Bytes × Bytes) := (query.splitOn 38).filterMap parsePiece

def queryValues (query key : Bytes) : List Bytes :=
  (parseQuery query).filterMap fun kv => if kv.1 = key then some kv.2 else none

theorem parseQuery_append (a b : Bytes) :
    parseQuery (a ++ 38 :: b) = parseQuery a ++ parseQuery b := by
  rw [parseQuery, splitOn_append_cons_self, filterMap_append]
  rfl

theorem parseQuery_piece (h : 38 ∉ piece) : parseQuery piece = (parsePiece piece).toList := by
  rw [parseQuery, splitOn_eq_singleton h]
  cases hpiece : parsePiece piece <;> simp [hpiece]

theorem mem_queryValues : value ∈ queryValues query key ↔ (key, value) ∈ parseQuery query := by
  simp [queryValues]

theorem parsePiece_value {a b : Bytes} (ha : 61 ∉ a) :
    parsePiece (a ++ 61 :: b) = some (key, value) ↔
      (59 ∉ a ∧ 59 ∉ b) ∧ Unescapes a key ∧ Unescapes b value := by
  unfold parsePiece
  simp only [cut_append b ha, getD_some, ← queryUnescape_eq_some]
  split
  · next h =>
    simp at h
    tauto
  · next h =>
    simp at h
    simp [h, bind_eq_some_iff]

theorem cut_eq_none {sep : UInt8} (h : sep ∉ s) : cut sep s = none :=
  eq_none_iff_forall_ne_some.mpr fun kv hkv => h (by simp [(cut_eq_some.mp hkv).1])

theorem length_le_of_parsePiece (h : parsePiece piece = some (key, value)) :
    value.length ≤ piece.length := by
  by_cases hmem : 61 ∈ piece
  · obtain ⟨a, b, rfl, ha⟩ := eq_append_cons_of_mem hmem
    have hle := ((parsePiece_value ha).mp h).2.2.length_le
    rw [length_append, length_cons]
    omega
  · unfold parsePiece at h
    split at h
    · cases h
    · simp only [cut_eq_none hmem, getD_none, bind_eq_some_iff, queryUnescape,
        map_some, some.injEq, Prod.mk.injEq] at h
      obtain ⟨_, _, -, rfl⟩ := h
      exact Nat.zero_le _

theorem parsePiece_append_question (hr : 61 ∉ r₁) (hkey : 63 ∉ key)
    (h : parsePiece (s ++ 63 :: (r₁ ++ 61 :: r₂)) = some (key, value)) :
    ∃ value', parsePiece s = some (key, value') := by
  by_cases hmem : 61 ∈ s
  · obtain ⟨a, b, rfl, ha⟩ := eq_append_cons_of_mem hmem
    rw [append_assoc, cons_append, parsePiece_value ha] at h
    obtain ⟨⟨hna, hnb⟩, hk, hv⟩ := h
    obtain ⟨value', -, hvalue', -⟩ := hv.of_append_question
    exact ⟨value', (parsePiece_value ha).mpr ⟨⟨hna, fun hb => hnb (by simp [hb])⟩, hk, hvalue'⟩⟩
  · rw [← cons_append, ← append_assoc, parsePiece_value (by simp [hmem, hr])] at h
    obtain ⟨a, b, -, rfl⟩ := h.2.1.of_append_question
    exact absurd (by simp) hkey

theorem query_induction {P : Bytes → Prop} (piece : ∀ p, 38 ∉ p → P p)
    (append : ∀ p q, 38 ∉ p → P q → P (p ++ 38 :: q)) (q : Bytes) : P q := by
  induction hn : q.length using Nat.strongRecOn generalizing q with
  | ind n ih =>
    by_cases hmem : 38 ∈ q
    · obtain ⟨a, b, rfl, ha⟩ := eq_append_cons_of_mem hmem
      rw [length_append, length_cons] at hn
      exact append a b ha (ih b.length (by omega) b rfl)
    · exact piece q hmem

theorem length_le_of_mem_parseQuery (h : (key, value) ∈ parseQuery query) :
    value.length ≤ query.length := by
  induction query using query_induction with
  | piece p hp =>
    rw [parseQuery_piece hp, mem_toList] at h
    exact length_le_of_parsePiece h
  | append p q hp ih =>
    rw [parseQuery_append, mem_append, parseQuery_piece hp, mem_toList] at h
    rw [length_append, length_cons]
    rcases h with h | h
    · have := length_le_of_parsePiece h
      omega
    · have := ih h
      omega

theorem mem_parseQuery_append_question (hr : 61 ∉ r₁) (hamp : 38 ∉ r₁ ++ 61 :: r₂) (hkey : 63 ∉ key)
    (h : (key, value) ∈ parseQuery (query ++ 63 :: (r₁ ++ 61 :: r₂))) :
    ∃ value', (key, value') ∈ parseQuery query := by
  induction query using query_induction with
  | piece p hp =>
    rw [parseQuery_piece (by simpa [hp] using hamp), mem_toList] at h
    obtain ⟨value', h'⟩ := parsePiece_append_question hr hkey h
    exact ⟨value', by rw [parseQuery_piece hp, mem_toList, h']⟩
  | append p q hp ih =>
    rw [append_assoc, cons_append, parseQuery_append, mem_append] at h
    simp only [parseQuery_append, mem_append]
    rcases h with h | h
    · exact ⟨value, .inl h⟩
    · obtain ⟨value', h'⟩ := ih h
      exact ⟨value', .inr h'⟩

theorem mem_parseQuery_last (hname : 61 ∉ name) (hamp : 38 ∉ name)
    (h : (key, value) ∈ parseQuery (name ++ 61 :: t)) (hle : t.length ≤ value.length) :
    38 ∉ t ∧ 59 ∉ t ∧ Unescapes t value := by
  have hfirst : ∀ {b : Bytes}, 38 ∉ b → (key, value) ∈ parseQuery (name ++ 61 :: b) →
      59 ∉ b ∧ Unescapes b value := by
    intro b hb h
    rw [parseQuery_piece (by simp [hamp, hb]), mem_toList] at h
    obtain ⟨⟨-, hsemi⟩, -, hv⟩ := (parsePiece_value hname).mp h
    exact ⟨hsemi, hv⟩
  by_cases hmem : 38 ∈ t
  · obtain ⟨a, b, rfl, ha⟩ := eq_append_cons_of_mem hmem
    rw [← cons_append, ← append_assoc, parseQuery_append, mem_append] at h
    rw [length_append, length_cons] at hle
    rcases h with h | h
    · have := (hfirst ha h).2.length_le
      omega
    · have := length_le_of_mem_parseQuery h
      omega
  · exact ⟨hmem, hfirst hmem h⟩

theorem parseQuery_value (hname : 61 ∉ name) (hn : ∀ c ∈ name, c ≠ 38 ∧ c ≠ 59 ∧ c ≠ 37 ∧ c ≠ 43)
    (hv : ∀ c ∈ value, c ≠ 38 ∧ c ≠ 59) (h : Unescapes value v) :
    parseQuery (name ++ 61 :: value) = [(name, v)] := by
  have hpiece : parsePiece (name ++ 61 :: value) = some (name, v) :=
    (parsePiece_value hname).mpr ⟨⟨fun h => (hn _ h).2.1 rfl, fun h => (hv _ h).2 rfl⟩,
      .self fun c hc => (hn c hc).2.2, h⟩
  rw [parseQuery_piece, hpiece]
  · rfl
  · simp only [mem_append, mem_cons, not_or]
    exact ⟨fun h => (hn _ h).1 rfl, by decide, fun h => (hv _ h).1 rfl⟩

theorem parseQuery_plain (hname : 61 ∉ name) (hn : ∀ c ∈ name, c ≠ 38 ∧ c ≠ 59 ∧ c ≠ 37 ∧ c ≠ 43)
    (hv : ∀ c ∈ value, c ≠ 38 ∧ c ≠ 59 ∧ c ≠ 37 ∧ c ≠ 43) :
    parseQuery (name ++ 61 :: value) = [(name, value)] :=
  parseQuery_value hname hn (fun c hc => ⟨(hv c hc).1, (hv c hc).2.1⟩)
    (.self fun c hc => (hv c hc).2.2)

/-! ## The query of a URL -/

def isCtl (c : UInt8) : Bool := c.toNat < 32 || c.toNat = 127

/-- `RawQuery` of `url.Parse(u)`; `none` if there is a control byte before the fragment. -/
def rawQuery (u : Bytes) : Option Bytes :=
  let u := u.takeWhile (· ≠ 35)
  if u.any isCtl then none else some ((u.dropWhile (· ≠ 63)).drop 1)

/-! ## The escapes of `http.Redirect` -/

def hexEscapeNonASCII (s : Bytes) : Bytes :=
  s.flatMap fun c => if c.toNat < 128 then [c] else 37 :: encodeHex [c]

theorem hexEscape_cons (hc : c.toNat < 128) (s : Bytes) :
    hexEscapeNonASCII (c :: s) = c :: hexEscapeNonASCII s := by
  rw [hexEscapeNonASCII, flatMap_cons, if_pos hc]
  rfl

theorem hexEscape_cons_high (hc : ¬c.toNat < 128) (s : Bytes) :
    hexEscapeNonASCII (c :: s) = 37 :: hexDigit (c.toNat / 16) :: hexDigit (c.toNat % 16)
      :: hexEscapeNonASCII s := by
  rw [hexEscapeNonASCII, flatMap_cons, if_neg hc]
  rfl

/-- A byte that no escape is written with. -/
def Separator (c : UInt8) : Prop := c.toNat < 128 ∧ c ≠ 37 ∧ hexVal c = none
deriving Decidable

theorem hexEscape_append (hc : Separator c) (a b : Bytes) :
    hexEscapeNonASCII (a ++ c :: b) = hexEscapeNonASCII a ++ c :: hexEscapeNonASCII b := by
  rw [← hexEscape_cons hc.1]
  exact flatMap_append

theorem mem_hexEscape (hc : Separator c) : c ∈ hexEscapeNonASCII s ↔ c ∈ s := by
  rw [hexEscapeNonASCII, mem_flatMap]
  constructor
  · rintro ⟨d, hd, hmem⟩
    split at hmem
    · exact mem_singleton.mp hmem ▸ hd
    · rcases mem_cons.mp hmem with rfl | hmem
      · exact absurd rfl hc.2.1
      · have hsome := hexVal_of_mem_encodeHex hmem
        rw [hc.2.2] at hsome
        cases hsome
  · exact fun hs => ⟨c, hs, by rw [if_pos hc.1]; exact mem_singleton_self c⟩

theorem lt_of_hexVal {n : Nat} (h : hexVal c = some n) : c.toNat < 128 := by
  unfold hexVal at h
  grind

theorem hexEscape_eq_cons (h : hexEscapeNonASCII s = c :: t) :
    (∃ s', s = c :: s' ∧ hexEscapeNonASCII s' = t) ∨ hexVal c = none := by
  cases s with
  | nil => cases h
  | cons d s =>
    by_cases hd : d.toNat < 128
    · rw [hexEscape_cons hd] at h
      obtain ⟨rfl, rfl⟩ := cons.inj h
      exact .inl ⟨s, rfl, rfl⟩
    · rw [hexEscape_cons_high hd] at h
      exact .inr ((cons.inj h).1 ▸ rfl)

theorem queryUnescape_percent (h : ∀ x y t, s = x :: y :: t → hexVal x = none ∨ hexVal y = none) :
    queryUnescape (37 :: s) = none := by
  unfold queryUnescape
  rw [if_pos rfl]
  split
  · split
    · next hx hy => rcases h _ _ _ rfl with hno | hno <;> simp [hno] at hx hy
    · rfl
  · rfl

theorem queryUnescape_hexEscape (s : Bytes) :
    queryUnescape (hexEscapeNonASCII s) = queryUnescape s := by
  -- an escape behind a percent sign begins with one itself, which is no digit
  have hbad : ∀ {s : Bytes}, (∀ x y t, s = x :: y :: t → hexVal x = none ∨ hexVal y = none) →
      queryUnescape (hexEscapeNonASCII (37 :: s)) = none := by
    intro s hs
    rw [hexEscape_cons (by decide)]
    refine queryUnescape_percent fun x y t ht => ?_
    rcases hexEscape_eq_cons ht with ⟨s', rfl, hs'⟩ | hx
    · rcases hexEscape_eq_cons hs' with ⟨s'', rfl, -⟩ | hy
      · exact hs x y s'' rfl
      · exact .inr hy
    · exact .inl hx
  fun_induction queryUnescape s with
  | case1 => rfl
  | case2 x y s m n hy hx ih =>
    rw [hexEscape_cons (by decide), hexEscape_cons (lt_of_hexVal hx),
      hexEscape_cons (lt_of_hexVal hy), queryUnescape, if_pos rfl]
    simp only [hx, hy, ih]
  | case3 x y s hno =>
    refine hbad fun x' y' t ht => ?_
    simp only [cons.injEq] at ht
    obtain ⟨rfl, rfl, -⟩ := ht
    by_contra hsome
    simp only [not_or, ne_none_iff_exists'] at hsome
    obtain ⟨⟨m, hm⟩, n, hn⟩ := hsome
    exact hno m n hm hn
  | case4 s hshort => exact hbad fun x y t ht => (hshort x y t ht).elim
  | case5 c s hc ih =>
    by_cases hlow : c.toNat < 128
    · rw [hexEscape_cons hlow]
      conv_lhs => unfold queryUnescape
      rw [if_neg hc, ih]
    · have hplus : c ≠ 43 := by
        rintro rfl
        exact hlow (by decide)
      have hsum : 16 * (c.toNat / 16) + c.toNat % 16 = c.toNat := Nat.div_add_mod _ _
      have hdiv : c.toNat / 16 < 16 := by have := c.toNat_lt; omega
      rw [hexEscape_cons_high hlow, queryUnescape, if_pos rfl, if_neg hplus]
      simp only [hexVal_hexDigit _ hdiv, hexVal_hexDigit _ (Nat.mod_lt _ (by decide)), ih, hsum,
        UInt8.ofNat_toNat]

theorem parsePiece_hexEscape (piece : Bytes) :
    parsePiece (hexEscapeNonASCII piece) = parsePiece piece := by
  have hempty : (hexEscapeNonASCII piece).isEmpty = piece.isEmpty := by
    cases piece with
    | nil => rfl
    | cons c s =>
      by_cases hc : c.toNat < 128
      · rw [hexEscape_cons hc]; rfl
      · rw [hexEscape_cons_high hc]; rfl
  have hsemi : (hexEscapeNonASCII piece).contains 59 = piece.contains 59 := by
    rw [Bool.eq_iff_iff, contains_iff_mem, contains_iff_mem, mem_hexEscape (by decide)]
  have hcut : (cut 61 (hexEscapeNonASCII piece)).getD (hexEscapeNonASCII piece, [])
      = ((cut 61 piece).getD (piece, [])).map hexEscapeNonASCII hexEscapeNonASCII := by
    by_cases hmem : 61 ∈ piece
    · obtain ⟨a, b, rfl, ha⟩ := eq_append_cons_of_mem hmem
      have hsep : Separator 61 := by decide
      rw [hexEscape_append hsep, cut_append b ha, cut_append _ (mt (mem_hexEscape hsep).mp ha)]
      rfl
    · rw [cut_eq_none hmem, cut_eq_none (mt (mem_hexEscape (by decide)).mp hmem)]
      rfl
  rw [parsePiece, parsePiece, hempty, hsemi, hcut]
  simp only [Prod.map_fst, Prod.map_snd, queryUnescape_hexEscape]

theorem parseQuery_hexEscape (query : Bytes) :
    parseQuery (hexEscapeNonASCII query) = parseQuery query := by
  have hsep : Separator 38 := by decide
  induction query using query_induction with
  | piece p hp =>
    rw [parseQuery_piece hp, parseQuery_piece (mt (mem_hexEscape hsep).mp hp), parsePiece_hexEscape]
  | append p q hp ih =>
    rw [hexEscape_append hsep, parseQuery_append, parseQuery_append, ih, parseQuery_piece hp,
      parseQuery_piece (mt (mem_hexEscape hsep).mp hp), parsePiece_hexEscape]

theorem span_hexEscape (hc : Separator c) (s : Bytes) :
    (hexEscapeNonASCII s).takeWhile (· ≠ c) = hexEscapeNonASCII (s.takeWhile (· ≠ c))
      ∧ ((hexEscapeNonASCII s).dropWhile (· ≠ c)).drop 1
        = hexEscapeNonASCII ((s.dropWhile (· ≠ c)).drop 1) := by
  have hpass : ∀ {a : Bytes}, c ∉ a → ∀ b ∈ a, decide (b ≠ c) = true := fun ha b hb =>
    decide_eq_true fun heq => ha (heq ▸ hb)
  have hesc : ∀ {a : Bytes}, c ∉ a → c ∉ hexEscapeNonASCII a := mt (mem_hexEscape hc).mp
  by_cases hmem : c ∈ s
  · obtain ⟨a, b, rfl, ha⟩ := eq_append_cons_of_mem hmem
    rw [hexEscape_append hc, takeWhile_append_of_pos (hpass ha), takeWhile_append_of_pos
      (hpass (hesc ha)), dropWhile_append_of_pos (hpass ha), dropWhile_append_of_pos
      (hpass (hesc ha))]
    simp
  · rw [takeWhile_eq_self_iff.mpr (hpass hmem), takeWhile_eq_self_iff.mpr
      (hpass (hesc hmem)), dropWhile_eq_nil_iff.mpr (hpass hmem), dropWhile_eq_nil_iff.mpr
      (hpass (hesc hmem))]
    exact ⟨rfl, rfl⟩

theorem rawQuery_hexEscape (u : Bytes) :
    rawQuery (hexEscapeNonASCII u) = (rawQuery u).map hexEscapeNonASCII := by
  have hctl : ∀ s : Bytes, (hexEscapeNonASCII s).any isCtl = s.any isCtl := by
    intro s
    induction s with
    | nil => rfl
    | cons c s ih =>
      by_cases hc : c.toNat < 128
      · rw [hexEscape_cons hc, any_cons, any_cons, ih]
      · have hdigit : ∀ d < 16, isCtl (hexDigit d) = false := by decide
        have hdiv : c.toNat / 16 < 16 := by have := c.toNat_lt; omega
        have hhigh : isCtl c = false := by
          simp only [isCtl, Bool.or_eq_false_iff, decide_eq_false_iff_not]
          omega
        rw [hexEscape_cons_high hc, any_cons, any_cons, any_cons, any_cons, ih, hhigh,
          hdigit _ hdiv, hdigit _ (Nat.mod_lt _ (by decide))]
        rfl
  rw [rawQuery, rawQuery, (span_hexEscape (by decide) u).1]
  simp only [hctl, (span_hexEscape (c := 63) (by decide) _).2]
  split <;> rfl
end Go
