import TptIdentity.Ecmascript
import TptIdentity.GoJsonMap

/-!
# The canonical form of RFC 8785

`Value.canonical` is the text of the JSON Canonicalization Scheme. `encoding/json` writes the
same text or a longer one (`Grows`): longer for runes escaped for HTML and for the negative
zero.
-/

namespace Go

open List Value

/-! ## The form -/

def rfcRune (r : Nat) : Bytes :=
  if r = 8 then [92, 98]
  else if r = 9 then [92, 116]
  else if r = 10 then [92, 110]
  else if r = 12 then [92, 102]
  else if r = 13 then [92, 114]
  else if r < 32 then uEscape r
  else if r = 34 then [92, 34]
  else if r = 92 then [92, 92]
  else encodeRune r

def rfcString (s : Bytes) : Bytes :=
  34 :: ((runes s).flatMap (fun r => rfcRune (r.getD runeError)) ++ [34])

def utf16 (s : Bytes) : List Nat :=
  (runes s).flatMap fun r =>
    let c := r.getD runeError
    if c < 0x10000 then [c] else [0xD800 + (c - 0x10000) / 1024, 0xDC00 + (c - 0x10000) % 1024]

def sortMembers {α : Type} (m : List (Bytes × α)) : List (Bytes × α) :=
  m.mergeSort fun e e' => utf16 e.1 ≤ utf16 e'.1

def commas : List Bytes → Bytes
  | [] => []
  | t :: l => t ++ l.flatMap (44 :: ·)

noncomputable def esInt (i : Int) : Bytes :=
  match parseFloat ⟨i < 0, i.natAbs, 0⟩ with
  | some f => esNumber f
  | none => []

mutual

noncomputable def Value.canonical : Value → Bytes
  | .null => Go.str "null"
  | .bool true => Go.str "true"
  | .bool false => Go.str "false"
  | .num f => esNumber f
  | .int i => esInt i
  | .str s => rfcString s
  | .arr l => 91 :: (commas (canonicalElems l) ++ [93])
  | .obj m =>
    123 :: (commas ((sortMembers (canonicalMembers m)).map fun e => rfcString e.1 ++ 58 :: e.2)
      ++ [125])
  | .unsupported _ => []

noncomputable def canonicalElems : List Value → List Bytes
  | [] => []
  | v :: l => v.canonical :: canonicalElems l

noncomputable def canonicalMembers : List (Bytes × Value) → List (Bytes × Bytes)
  | [] => []
  | (k, v) :: m => (k, v.canonical) :: canonicalMembers m

end

theorem canonicalElems_eq (l : List Value) : canonicalElems l = l.map canonical := by
  induction l with
  | nil => rfl
  | cons v l ih => rw [canonicalElems, ih, map_cons]

theorem canonicalMembers_eq (m : List (Bytes × Value)) :
    canonicalMembers m = m.map fun e => (e.1, e.2.canonical) := by
  induction m with
  | nil => rfl
  | cons e m ih => rw [canonicalMembers, ih, map_cons]

/-! ## The order of members -/

theorem utf16_ascii {s : Bytes} (h : IsAscii s) : utf16 s = s.map UInt8.toNat := by
  rw [utf16, runes_of_ascii h, flatMap_map]
  induction s with
  | nil => rfl
  | cons b s ih =>
    have hb := h b mem_cons_self
    rw [flatMap_cons, map_cons, ih fun c hc => h c (mem_cons_of_mem _ hc)]
    simp only [Option.getD_some]
    rw [if_pos (by omega)]
    rfl

theorem map_toNat_lt_map : ∀ {s t : Bytes}, s.map UInt8.toNat < t.map UInt8.toNat ↔ s < t
  | _, [] => by simp
  | [], c :: t => by simp
  | b :: s, c :: t => by
    rw [map_cons, map_cons, cons_lt_cons_iff, cons_lt_cons_iff,
      map_toNat_lt_map, UInt8.toNat_inj, UInt8.lt_iff_toNat_lt]

theorem sortMembers_perm {α : Type} (m : List (Bytes × α)) : (sortMembers m).Perm m :=
  mergeSort_perm _ _

/-- ASCII keys are in the order of their code units where they are in the order of their bytes. -/
theorem keysSorted_sortMembers {α : Type} {m : List (Bytes × α)} (hnodup : (m.map Prod.fst).Nodup)
    (hascii : ∀ e ∈ m, IsAscii e.1) : KeysSorted (sortMembers m) := by
  have hperm := sortMembers_perm m
  have hle : (sortMembers m).Pairwise fun e e' => utf16 e.1 ≤ utf16 e'.1 := by
    have hsort := @pairwise_mergeSort _ (fun e e' : Bytes × α => utf16 e.1 ≤ utf16 e'.1)
      (fun a b c hab hbc => by
        rw [decide_eq_true_eq] at hab hbc ⊢
        exact hab.trans hbc)
      (fun a b => by
        rw [Bool.or_eq_true, decide_eq_true_eq, decide_eq_true_eq]
        exact le_total _ _) m
    exact hsort.imp fun h => of_decide_eq_true h
  have hne : (sortMembers m).Pairwise fun e e' => e.1 ≠ e'.1 :=
    List.pairwise_map.mp ((hperm.map Prod.fst).nodup_iff.mpr hnodup)
  refine (hle.and hne).imp_of_mem fun {e e'} he he' h => ?_
  have h1 := hascii e (hperm.mem_iff.mp he)
  have h2 := hascii e' (hperm.mem_iff.mp he')
  rw [utf16_ascii h1, utf16_ascii h2, ← not_lt, map_toNat_lt_map, not_lt] at h
  exact lt_of_le_of_ne h.1 h.2

theorem sortMembers_eq {α : Type} {m : List (Bytes × α)} (hnodup : (m.map Prod.fst).Nodup)
    (hascii : ∀ e ∈ m, IsAscii e.1) : sortMembers m = assocOf m :=
  (assocOf_perm (keysSorted_sortMembers hnodup hascii) (sortMembers_perm m).symm).symm

theorem assocOf_perm_self {α : Type} {m : List (Bytes × α)} (hnodup : (m.map Prod.fst).Nodup)
    (hascii : ∀ e ∈ m, IsAscii e.1) : (assocOf m).Perm m :=
  sortMembers_eq hnodup hascii ▸ sortMembers_perm m

theorem canonical_obj {m : List (Bytes × Value)} (hnodup : (m.map Prod.fst).Nodup)
    (hascii : ∀ e ∈ m, IsAscii e.1) :
    (obj m).canonical = 123 :: (commas ((assocOf m).map fun e =>
      rfcString e.1 ++ 58 :: e.2.canonical) ++ [125]) := by
  have hsort : sortMembers (m.map fun e => (e.1, e.2.canonical))
      = (assocOf m).map fun e => (e.1, e.2.canonical) := by
    rw [sortMembers_eq, assocOf_map_snd]
    · rw [map_map]
      exact hnodup
    · rw [forall_mem_map]
      exact hascii
  rw [canonical, canonicalMembers_eq, hsort, map_map]
  rfl

/-! ## Two writers -/

structure Grows (p : Prop) (t c : Bytes) : Prop where
  eq : p → t = c
  lt : ¬ p → c.length < t.length

namespace Grows

variable {p q : Prop} {t u c d : Bytes}

theorem refl (t : Bytes) : Grows True t t := ⟨fun _ => rfl, fun h => absurd trivial h⟩

theorem length_le (h : Grows p t c) : c.length ≤ t.length := by
  by_cases hp : p
  · rw [h.eq hp]
  · exact (h.lt hp).le

theorem eq_iff (h : Grows p t c) : t = c ↔ p := by
  refine ⟨fun heq => ?_, h.eq⟩
  by_contra hp
  have := h.lt hp
  rw [heq] at this
  exact absurd this (lt_irrefl _)

theorem congr (h : Grows p t c) (hpq : p ↔ q) : Grows q t c :=
  ⟨fun hq => h.eq (hpq.mpr hq), fun hq => h.lt fun hp => hq (hpq.mp hp)⟩

theorem append (h : Grows p t c) (h' : Grows q u d) : Grows (p ∧ q) (t ++ u) (c ++ d) := by
  refine ⟨fun hpq => by rw [h.eq hpq.1, h'.eq hpq.2], fun hpq => ?_⟩
  rw [length_append, length_append]
  by_cases hp : p
  · have hq := h'.lt fun hq => hpq ⟨hp, hq⟩
    have := h.length_le
    omega
  · have hp := h.lt hp
    have := h'.length_le
    omega

theorem cons (b : UInt8) (h : Grows p t c) : Grows p (b :: t) (b :: c) :=
  ((refl [b]).append h).congr (iff_of_eq (true_and p))

theorem snoc (h : Grows p t c) (b : UInt8) : Grows p (t ++ [b]) (c ++ [b]) :=
  (h.append (refl [b])).congr (iff_of_eq (and_true p))

variable {α : Type} {P : α → Prop} {f g : α → Bytes} {l : List α}

theorem flatMap (h : ∀ a ∈ l, Grows (P a) (f a) (g a)) :
    Grows (∀ a ∈ l, P a) (l.flatMap f) (l.flatMap g) := by
  induction l with
  | nil => exact (refl []).congr (by simp)
  | cons a l ih =>
    rw [forall_mem_cons] at h
    exact (h.1.append (ih h.2)).congr List.forall_mem_cons.symm

theorem commas (h : ∀ a ∈ l, Grows (P a) (f a) (g a)) :
    Grows (∀ a ∈ l, P a) (commas (l.map f)) (Go.commas (l.map g)) := by
  cases l with
  | nil => exact (refl []).congr (by simp)
  | cons a l =>
    rw [forall_mem_cons] at h
    rw [map_cons, map_cons, Go.commas, Go.commas, flatMap_map, flatMap_map]
    exact (h.1.append (flatMap fun a ha => (h.2 a ha).cons 44)).congr List.forall_mem_cons.symm

end Grows

/-! ## Strings -/

def htmlEscaped (r : Nat) : Bool := [38, 60, 62, 0x2028, 0x2029].contains r

theorem grows_rune (r : Nat) : Grows (htmlEscaped r = false) (escapeRune (some r)) (rfcRune r) := by
  cases hr : htmlEscaped r with
  | true =>
    have hcases : r = 38 ∨ r = 60 ∨ r = 62 ∨ r = 0x2028 ∨ r = 0x2029 := by
      simpa [htmlEscaped] using hr
    refine ⟨fun h => Bool.noConfusion h, fun _ => ?_⟩
    rcases hcases with rfl | rfl | rfl | rfl | rfl <;> decide
  | false =>
    have hu : isUEscaped r = decide (r < 32) := by
      have hor : isUEscaped r = (decide (r < 32) || htmlEscaped r) := rfl
      rw [hor, hr, Bool.or_false]
    refine ⟨fun _ => ?_, fun h => absurd rfl h⟩
    by_cases hesc : r = 8 ∨ r = 9 ∨ r = 10 ∨ r = 12 ∨ r = 13 ∨ r = 34 ∨ r = 92
    · rcases hesc with rfl | rfl | rfl | rfl | rfl | rfl | rfl <;> rfl
    · have hnone : escLetter r = none := by
        rw [escLetter, if_neg (by omega), if_neg (by omega), if_neg (by omega), if_neg (by omega),
          if_neg (by omega), if_neg (by omega), if_neg (by omega)]
      have hrfc : rfcRune r = if r < 32 then uEscape r else encodeRune r := by
        rw [rfcRune, if_neg (by omega), if_neg (by omega), if_neg (by omega), if_neg (by omega),
          if_neg (by omega), if_neg (c := r = 34) (by omega), if_neg (c := r = 92) (by omega)]
      simp only [escapeRune, hnone, hu, hrfc, decide_eq_true_eq]

def plainString (s : Bytes) : Bool := (runes s).all fun r => !htmlEscaped (r.getD runeError)

theorem grows_string {s : Bytes} (hs : validUtf8 s) :
    Grows (plainString s) (encodeString s) (rfcString s) := by
  have hrunes : ∀ r ∈ runes s, Grows (htmlEscaped (r.getD runeError) = false) (escapeRune r)
        (rfcRune (r.getD runeError)) := by
    intro r hr
    cases r with
    | none => exact absurd hr (validUtf8_iff.mp hs)
    | some r => exact grows_rune r
  refine (((Grows.flatMap hrunes).snoc 34).cons 34).congr ?_
  simp [plainString]

/-! ## Numbers -/

def plainNumber (f : Float64) : Bool := f.mant ≠ 0 || !f.neg

theorem grows_number (f : Float64) : Grows (plainNumber f) (formatFloat f) (esNumber f) := by
  by_cases hf : f.mant = 0
  · rw [formatFloat_zero hf, esNumber_zero hf]
    cases hneg : f.neg with
    | true => exact ⟨fun h => by simp [plainNumber, hf, hneg] at h, fun _ => by simp⟩
    | false => exact ⟨fun _ => rfl, fun h => absurd (by simp [plainNumber, hf, hneg]) h⟩
  · rw [esNumber_eq_formatFloat hf]
    exact (Grows.refl _).congr (by simp [plainNumber, hf])

theorem exists_parseFloat_int {i : Int} (hlow : -2 ^ 63 ≤ i) (hhigh : i < 2 ^ 64) :
    ∃ f, parseFloat ⟨i < 0, i.natAbs, 0⟩ = some f ∧ plainNumber f := by
  have habs : (⟨i < 0, i.natAbs, 0⟩ : Decimal).abs = i.natAbs := by
    rw [Decimal.abs, zpow_zero, mul_one]
  have hlt : (i.natAbs : ℚ) < 2 ^ (1023 : Int) := by
    calc (i.natAbs : ℚ) < 2 ^ (65 : Int) := by exact_mod_cast (show i.natAbs < 2 ^ 65 by omega)
      _ ≤ 2 ^ (1023 : Int) := zpow_le_zpow_right₀ (by norm_num) (by norm_num)
  obtain ⟨f, hf⟩ := exists_ofAbs (decide (i < 0)) (Nat.cast_nonneg i.natAbs) hlt
  refine ⟨f, by rw [parseFloat, habs, hf], ?_⟩
  obtain ⟨hneg, hreads⟩ := (ofAbs_eq_some (Nat.cast_nonneg i.natAbs)).mp hf
  by_cases hi : i < 0
  · have hone : (1 : ℚ) ≤ i.natAbs := by exact_mod_cast (show 1 ≤ i.natAbs by omega)
    simp [plainNumber, hreads.mant_ne_zero hone]
  · simp [plainNumber, hneg, hi]

/-! ## Arrays and objects -/

theorem text_arr (l : List Value) : (arr l).text = 91 :: (commas (l.map text) ++ [93]) := by
  have helems : ∀ l : List Value, elemsText l = l.flatMap fun v => 44 :: v.text := by
    intro l
    induction l with
    | nil => rfl
    | cons v l ih => rw [elemsText, ih, flatMap_cons, cons_append]
  cases l with
  | nil => rfl
  | cons v l =>
    rw [text, helems, map_cons, commas, flatMap_map, append_assoc]

theorem text_obj (m : List (Bytes × Value)) :
    (obj m).text
      = 123 :: (commas (m.map fun e => encodeString e.1 ++ 58 :: e.2.text) ++ [125]) := by
  have hmembers : ∀ m : List (Bytes × Value), membersText m
      = m.flatMap fun e => 44 :: (encodeString e.1 ++ 58 :: e.2.text) := by
    intro m
    induction m with
    | nil => rfl
    | cons e m ih =>
      rw [membersText, ih, flatMap_cons]
      simp only [cons_append, append_assoc]
  cases m with
  | nil => rfl
  | cons e m =>
    rw [text, hmembers, map_cons, commas, flatMap_map]
    simp only [cons_append, append_assoc]

mutual

def Value.plain : Value → Bool
  | .num f => plainNumber f
  | .str s => plainString s
  | .arr l => plainElems l
  | .obj m => plainMembers m
  | _ => true

def plainElems : List Value → Bool
  | [] => true
  | v :: l => v.plain && plainElems l

def plainMembers : List (Bytes × Value) → Bool
  | [] => true
  | (k, v) :: m => plainString k && v.plain && plainMembers m

end

theorem plainElems_iff {l : List Value} : plainElems l ↔ ∀ v ∈ l, v.plain := by
  induction l with
  | nil => simp [plainElems]
  | cons v l ih => simp [plainElems, ih]

theorem plainMembers_iff {m : List (Bytes × Value)} :
    plainMembers m ↔ ∀ e ∈ m, plainString e.1 ∧ e.2.plain := by
  induction m with
  | nil => simp [plainMembers]
  | cons e m ih => simp only [plainMembers, ih, Bool.and_eq_true, forall_mem_cons]

end Go
