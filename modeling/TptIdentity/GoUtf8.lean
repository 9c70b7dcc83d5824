import Mathlib.Data.List.Basic
import Mathlib.Tactic.Linarith
import TptIdentity.GoBasic

/-!
# UTF-8 as Go decodes it

`decodeRune` is `utf8.DecodeRune`. `runes` iterates it and keeps an ill-formed byte (`none`)
apart from an encoded U+FFFD. The codec is inverted by `decodeRune_encodeRune` and
`decodeRune_cases`.
-/

namespace Go

open List UInt8

def runeError : Nat := 0xFFFD

def IsScalar (r : Nat) : Prop := r < 0xD800 ∨ (0xE000 ≤ r ∧ r < 0x110000)
deriving Decidable

theorem isScalar_runeError : IsScalar runeError := by decide

def encodeRune (r : Nat) : Bytes :=
  if r < 0x80 then [ofNat r]
  else if r < 0x800 then [ofNat (0xC0 + r / 64), ofNat (0x80 + r % 64)]
  else if ¬IsScalar r then [0xEF, 0xBF, 0xBD]
  else if r < 0x10000 then
    [ofNat (0xE0 + r / 4096), ofNat (0x80 + r / 64 % 64), ofNat (0x80 + r % 64)]
  else
    [ofNat (0xF0 + r / 262144), ofNat (0x80 + r / 4096 % 64),
      ofNat (0x80 + r / 64 % 64), ofNat (0x80 + r % 64)]

def isCont (b : UInt8) : Bool := 0x80 ≤ b.toNat && b.toNat ≤ 0xBF

def isSeq2 (a b : UInt8) : Bool := 0xC2 ≤ a.toNat && a.toNat ≤ 0xDF && isCont b

def isSeq3 (a b c : UInt8) : Bool :=
  0xE0 ≤ a.toNat && a.toNat ≤ 0xEF && isCont b && isCont c
    && (a.toNat != 0xE0 || 0xA0 ≤ b.toNat) && (a.toNat != 0xED || b.toNat ≤ 0x9F)

def isSeq4 (a b c d : UInt8) : Bool :=
  0xF0 ≤ a.toNat && a.toNat ≤ 0xF4 && isCont b && isCont c && isCont d
    && (a.toNat != 0xF0 || 0x90 ≤ b.toNat) && (a.toNat != 0xF4 || b.toNat ≤ 0x8F)

def decodeRune : Bytes → Nat × Nat
  | [] => (runeError, 0)
  | a :: s =>
    if a.toNat < 0x80 then (a.toNat, 1) else
    match s with
    | [] => (runeError, 1)
    | b :: s =>
      if isSeq2 a b then (a.toNat % 32 * 64 + b.toNat % 64, 2) else
      match s with
      | [] => (runeError, 1)
      | c :: s =>
        if isSeq3 a b c then
          (a.toNat % 16 * 4096 + b.toNat % 64 * 64 + c.toNat % 64, 3) else
        match s with
        | [] => (runeError, 1)
        | d :: _ =>
          if isSeq4 a b c d then
            (a.toNat % 8 * 262144 + b.toNat % 64 * 4096 + c.toNat % 64 * 64
              + d.toNat % 64, 4)
          else (runeError, 1)

/-! ## The codec of one rune -/

variable (r : Nat)

theorem encodeRune_ne_nil : encodeRune r ≠ [] := by
  unfold encodeRune
  repeat' split
  all_goals simp

variable {a b c : UInt8} {t : Bytes}

theorem decodeRune_one (ha : a.toNat < 0x80) (s : Bytes) : decodeRune (a :: s) = (a.toNat, 1) := by
  simp [decodeRune, ha]

theorem decodeRune_two (h : isSeq2 a b) (s : Bytes) :
    decodeRune (a :: b :: s) = (a.toNat % 32 * 64 + b.toNat % 64, 2) := by
  have ha : ¬a.toNat < 0x80 := by simp [isSeq2] at h; omega
  simp [decodeRune, ha, h]

theorem decodeRune_three (h : isSeq3 a b c) (s : Bytes) :
    decodeRune (a :: b :: c :: s)
      = (a.toNat % 16 * 4096 + b.toNat % 64 * 64 + c.toNat % 64, 3) := by
  have ha : ¬a.toNat < 0x80 ∧ ¬isSeq2 a b := by simp [isSeq2, isSeq3] at h ⊢; omega
  simp [decodeRune, ha, h]

theorem decodeRune_four {d : UInt8} (h : isSeq4 a b c d) (s : Bytes) :
    decodeRune (a :: b :: c :: d :: s)
      = (a.toNat % 8 * 262144 + b.toNat % 64 * 4096 + c.toNat % 64 * 64 + d.toNat % 64, 4) := by
  have ha : ¬a.toNat < 0x80 ∧ ¬isSeq2 a b ∧ ¬isSeq3 a b c := by
    simp [isSeq2, isSeq3, isSeq4] at h ⊢
    omega
  simp [decodeRune, ha, h]

theorem decodeRune_encodeRune {r : Nat} (hr : IsScalar r) (s : Bytes) :
    decodeRune (encodeRune r ++ s) = (r, (encodeRune r).length) := by
  have hr' := hr
  unfold IsScalar at hr'
  -- the bytes of the encoding are in range, so `UInt8.ofNat` loses nothing
  have hbyte : ∀ n, n < 256 → (ofNat n).toNat = n := fun n hn => by
    simp [Nat.mod_eq_of_lt hn]
  unfold encodeRune
  split
  case isTrue h =>
    have ha := hbyte r (by omega)
    exact (decodeRune_one (by omega) s).trans (by simp [ha])
  case isFalse h1 =>
  split
  case isTrue h =>
    have ha := hbyte (0xC0 + r / 64) (by omega)
    have hb := hbyte (0x80 + r % 64) (by omega)
    refine (decodeRune_two ?_ s).trans ?_
    · simp only [isSeq2, isCont, ha, hb, Bool.and_eq_true, decide_eq_true_eq]
      omega
    · rw [ha, hb]
      exact Prod.ext (by omega) rfl
  case isFalse h2 =>
  split
  case isTrue h =>
    have ha := hbyte (0xE0 + r / 4096) (by omega)
    have hb := hbyte (0x80 + r / 64 % 64) (by omega)
    have hc := hbyte (0x80 + r % 64) (by omega)
    refine (decodeRune_three ?_ s).trans ?_
    · simp only [isSeq3, isCont, ha, hb, hc, Bool.and_eq_true, Bool.or_eq_true,
        decide_eq_true_eq, bne_iff_ne]
      omega
    · rw [ha, hb, hc]
      exact Prod.ext (by omega) rfl
  case isFalse h3 =>
    have ha := hbyte (0xF0 + r / 262144) (by omega)
    have hb := hbyte (0x80 + r / 4096 % 64) (by omega)
    have hc := hbyte (0x80 + r / 64 % 64) (by omega)
    have hd := hbyte (0x80 + r % 64) (by omega)
    refine (decodeRune_four ?_ s).trans ?_
    · simp only [isSeq4, isCont, ha, hb, hc, hd, Bool.and_eq_true, Bool.or_eq_true,
        decide_eq_true_eq, bne_iff_ne]
      omega
    · rw [ha, hb, hc, hd]
      exact Prod.ext (by omega) rfl

theorem ofNat_eq_of_toNat {n : Nat} (h : n = b.toNat) : UInt8.ofNat n = b := by
  rw [h, UInt8.ofNat_toNat]

theorem decodeRune_cases (a : UInt8) (s : Bytes) :
    (∃ r t, IsScalar r ∧ a :: s = encodeRune r ++ t
      ∧ decodeRune (a :: s) = (r, (encodeRune r).length))
      ∨ decodeRune (a :: s) = (runeError, 1) := by
  by_cases h1 : a.toNat < 0x80
  · refine .inl ⟨a.toNat, s, .inl (by omega), ?_, ?_⟩
    · simp [encodeRune, h1]
    · rw [decodeRune_one h1]
      simp [encodeRune, h1]
  rcases s with _ | ⟨b, s⟩
  · exact .inr (by simp [decodeRune, h1])
  by_cases h2 : isSeq2 a b
  · have h2' := h2
    simp only [isSeq2, isCont, Bool.and_eq_true, decide_eq_true_eq] at h2'
    have henc : encodeRune (a.toNat % 32 * 64 + b.toNat % 64) = [a, b] := by
      rw [encodeRune, if_neg (by omega), if_pos (by omega), ofNat_eq_of_toNat (b := a) (by omega),
        ofNat_eq_of_toNat (b := b) (by omega)]
    refine .inl ⟨a.toNat % 32 * 64 + b.toNat % 64, s, .inl (by omega), ?_, ?_⟩
    · rw [henc]; rfl
    · rw [henc]; exact decodeRune_two h2 s
  rcases s with _ | ⟨c, s⟩
  · exact .inr (by simp [decodeRune, h1, h2])
  by_cases h3 : isSeq3 a b c
  · have h3' := h3
    simp only [isSeq3, isCont, Bool.and_eq_true, Bool.or_eq_true, decide_eq_true_eq,
      bne_iff_ne] at h3'
    have hs : IsScalar (a.toNat % 16 * 4096 + b.toNat % 64 * 64 + c.toNat % 64) := by
      unfold IsScalar
      omega
    have henc : encodeRune (a.toNat % 16 * 4096 + b.toNat % 64 * 64 + c.toNat % 64)
        = [a, b, c] := by
      rw [encodeRune, if_neg (by omega), if_neg (by omega), if_neg (not_not.mpr hs),
        if_pos (by omega), ofNat_eq_of_toNat (b := a) (by omega),
        ofNat_eq_of_toNat (b := b) (by omega), ofNat_eq_of_toNat (b := c) (by omega)]
    refine .inl ⟨_, s, hs, ?_, ?_⟩
    · rw [henc]; rfl
    · rw [henc]; exact decodeRune_three h3 s
  rcases s with _ | ⟨d, s⟩
  · exact .inr (by simp [decodeRune, h1, h2, h3])
  by_cases h4 : isSeq4 a b c d
  · have h4' := h4
    simp only [isSeq4, isCont, Bool.and_eq_true, Bool.or_eq_true, decide_eq_true_eq,
      bne_iff_ne] at h4'
    have hs : IsScalar (a.toNat % 8 * 262144 + b.toNat % 64 * 4096 + c.toNat % 64 * 64
        + d.toNat % 64) := by
      unfold IsScalar
      omega
    have henc : encodeRune (a.toNat % 8 * 262144 + b.toNat % 64 * 4096 + c.toNat % 64 * 64
        + d.toNat % 64) = [a, b, c, d] := by
      rw [encodeRune, if_neg (by omega), if_neg (by omega), if_neg (not_not.mpr hs),
        if_neg (by omega), ofNat_eq_of_toNat (b := a) (by omega),
        ofNat_eq_of_toNat (b := b) (by omega), ofNat_eq_of_toNat (b := c) (by omega),
        ofNat_eq_of_toNat (b := d) (by omega)]
    refine .inl ⟨_, s, hs, ?_, ?_⟩
    · rw [henc]; rfl
    · rw [henc]; exact decodeRune_four h4 s
  · exact .inr (by simp [decodeRune, h1, h2, h3, h4])

/-! ## Strings -/

/-- The runes of a string; `none` stands for one ill-formed byte. -/
def runesLoop : Nat → Bytes → List (Option Nat)
  | 0, _ => []
  | _, [] => []
  | fuel + 1, a :: s =>
    if decodeRune (a :: s) = (runeError, 1) then none :: runesLoop fuel s
    else some (decodeRune (a :: s)).1
      :: runesLoop fuel ((a :: s).drop (decodeRune (a :: s)).2)

def runes (s : Bytes) : List (Option Nat) := runesLoop s.length s

/-- What a `for range` loop delivers: an ill-formed byte comes out as U+FFFD. -/
def coerce (s : Bytes) : Bytes :=
  (runes s).flatMap fun r => encodeRune (r.getD runeError)

def validUtf8 (s : Bytes) : Bool := !(runes s).contains none

theorem encodeRune_length_pos : 0 < (encodeRune r).length :=
  length_pos_of_ne_nil (encodeRune_ne_nil r)

theorem decodeRune_encodeRune_ne {r : Nat} (hr : IsScalar r) (s : Bytes) :
    decodeRune (encodeRune r ++ s) ≠ (runeError, 1) := by
  rw [decodeRune_encodeRune hr]
  intro h
  obtain ⟨rfl, h1⟩ := Prod.mk.inj h
  revert h1
  decide

theorem runesLoop_eq : ∀ (fuel fuel' : Nat) (s : Bytes), s.length ≤ fuel → s.length ≤ fuel' →
    runesLoop fuel s = runesLoop fuel' s
  | 0, 0, _, _, _ => rfl
  | 0, fuel' + 1, [], _, _ => rfl
  | fuel + 1, 0, [], _, _ => rfl
  | fuel + 1, fuel' + 1, [], _, _ => rfl
  | fuel + 1, fuel' + 1, a :: s, h, h' => by
    simp only [length_cons] at h h'
    have htail := runesLoop_eq fuel fuel' s (by omega) (by omega)
    have hdrop : ((a :: s).drop (decodeRune (a :: s)).2).length ≤ s.length := by
      rcases decodeRune_cases a s with ⟨r, t, -, hs, hd⟩ | hd
      · have := encodeRune_length_pos r
        simp only [hd, length_drop, length_cons]
        omega
      · simp [hd]
    have hrest := runesLoop_eq fuel fuel' ((a :: s).drop (decodeRune (a :: s)).2)
      (by omega) (by omega)
    simp only [runesLoop, htail, hrest]

@[simp] theorem runes_nil : runes [] = [] := rfl

theorem runes_encodeRune {r : Nat} (hr : IsScalar r) (s : Bytes) :
    runes (encodeRune r ++ s) = some r :: runes s := by
  have hpos := encodeRune_length_pos r
  have hd := decodeRune_encodeRune hr s
  have hne := decodeRune_encodeRune_ne hr s
  have hdrop : (encodeRune r ++ s).drop (encodeRune r).length = s := by simp
  have hlen : (encodeRune r ++ s).length = (encodeRune r).length + s.length := by simp
  unfold runes
  generalize encodeRune r ++ s = w at *
  rcases w with _ | ⟨a, w⟩
  · simp only [length_nil] at hlen
    omega
  · rw [length_cons] at hlen
    rw [length_cons, runesLoop, if_neg hne, hd, hdrop,
      runesLoop_eq w.length s.length s (by omega) (by omega)]

variable {s : Bytes}

theorem runes_bad (h : decodeRune (a :: s) = (runeError, 1)) :
    runes (a :: s) = none :: runes s := by
  simp [runes, runesLoop, h]

theorem runes_induction {P : Bytes → Prop} (nil : P [])
    (rune : ∀ r s, IsScalar r → P s → P (encodeRune r ++ s))
    (bad : ∀ a s, decodeRune (a :: s) = (runeError, 1) → P s → P (a :: s)) (s : Bytes) : P s := by
  induction hn : s.length using Nat.strong_induction_on generalizing s with
  | _ n ih =>
    rcases s with _ | ⟨a, s⟩
    · exact nil
    · rcases decodeRune_cases a s with ⟨r, t, hr, hs, -⟩ | hd
      · have := encodeRune_length_pos r
        rw [hs] at hn ⊢
        simp only [length_append] at hn
        exact rune r t hr (ih t.length (by omega) t rfl)
      · simp only [length_cons] at hn
        exact bad a s hd (ih s.length (by omega) s rfl)

theorem isScalar_of_mem_runes (s : Bytes) : ∀ r, some r ∈ runes s → IsScalar r := by
  induction s using runes_induction with
  | nil => simp
  | rune r s hr ih =>
    intro r' h
    rw [runes_encodeRune hr, mem_cons] at h
    rcases h with h | h
    · exact Option.some.inj h ▸ hr
    · exact ih r' h
  | bad a s hd ih =>
    intro r' h
    rw [runes_bad hd, mem_cons] at h
    rcases h with h | h
    · cases h
    · exact ih r' h

theorem runes_flatMap : ∀ {rs : List Nat}, (∀ r ∈ rs, IsScalar r) →
    runes (rs.flatMap encodeRune) = rs.map some
  | [], _ => rfl
  | r :: rs, h => by
    rw [flatMap_cons, runes_encodeRune (h r mem_cons_self), map_cons,
      runes_flatMap fun r' hr' => h r' (mem_cons_of_mem _ hr')]

@[simp] theorem validUtf8_iff : validUtf8 s ↔ none ∉ runes s := by
  simp [validUtf8]

theorem runes_coerce (s : Bytes) :
    runes (coerce s) = (runes s).map fun r => some (r.getD runeError) := by
  have h : ∀ r ∈ (runes s).map (·.getD runeError), IsScalar r := by
    intro r hr
    obtain ⟨r', hr', rfl⟩ := mem_map.mp hr
    rcases r' with _ | r'
    · exact isScalar_runeError
    · exact isScalar_of_mem_runes s r' hr'
  have := runes_flatMap h
  rwa [flatMap_map, map_map] at this

theorem exists_scalar_encodeRune : ∃ r', IsScalar r' ∧ encodeRune r = encodeRune r' := by
  by_cases hr : IsScalar r
  · exact ⟨r, hr, rfl⟩
  · refine ⟨runeError, isScalar_runeError, ?_⟩
    have h : ¬r < 0x80 ∧ ¬r < 0x800 := by unfold IsScalar at hr; omega
    rw [encodeRune, if_neg h.1, if_neg h.2, if_pos hr]
    decide

@[simp] theorem validUtf8_encodeRune_append (s : Bytes) :
    validUtf8 (encodeRune r ++ s) = validUtf8 s := by
  obtain ⟨r', hr', heq⟩ := exists_scalar_encodeRune r
  rw [heq, validUtf8, runes_encodeRune hr', validUtf8]
  simp

theorem coerce_eq_self (h : validUtf8 s) : coerce s = s := by
  rw [validUtf8_iff] at h
  induction s using runes_induction with
  | nil => rfl
  | rune r s hr ih =>
    rw [runes_encodeRune hr] at h
    rw [coerce, runes_encodeRune hr, flatMap_cons]
    exact congrArg _ (ih fun hn => h (mem_cons_of_mem _ hn))
  | bad a s hd ih =>
    rw [runes_bad hd] at h
    exact absurd mem_cons_self h

theorem validUtf8_coerce (s : Bytes) : validUtf8 (coerce s) := by
  rw [validUtf8_iff, runes_coerce]
  intro h
  obtain ⟨_, -, hr⟩ := mem_map.mp h
  cases hr

@[simp] theorem coerce_coerce (s : Bytes) : coerce (coerce s) = coerce s :=
  coerce_eq_self (validUtf8_coerce s)

theorem encodeRune_ascii (h : b.toNat < 128) : encodeRune b.toNat = [b] := by
  simp [encodeRune, h]

theorem runes_of_ascii : ∀ {s : Bytes}, IsAscii s → runes s = s.map fun b => some b.toNat
  | [], _ => rfl
  | b :: s, h => by
    have hb := h b mem_cons_self
    have hrunes := runes_encodeRune (r := b.toNat) (.inl (by omega)) s
    rw [encodeRune_ascii hb] at hrunes
    rw [← singleton_append, hrunes, runes_of_ascii fun c hc => h c (mem_cons_of_mem _ hc)]
    rfl

theorem validUtf8_of_ascii (h : IsAscii s) : validUtf8 s := by
  simp [runes_of_ascii h]

theorem coerce_ne_nil (h : s ≠ []) : coerce s ≠ [] := by
  intro h0
  have hrunes : runes s = [] := by
    have := runes_coerce s
    rw [h0, runes_nil] at this
    exact map_eq_nil_iff.mp this.symm
  have hvalid : validUtf8 s := by
    rw [validUtf8_iff, hrunes]
    exact not_mem_nil
  exact h (coerce_eq_self hvalid ▸ h0)

theorem eq_of_coerce_eq (ht : some runeError ∉ runes t) (h : coerce s = t) : s = t := by
  have hvalid : validUtf8 s := by
    rw [validUtf8_iff]
    intro hnone
    refine ht ?_
    rw [← h, runes_coerce]
    exact mem_map.mpr ⟨none, hnone, rfl⟩
  rw [← h, coerce_eq_self hvalid]

theorem coerce_eq_ascii {k : Bytes} (hk : IsAscii k) : coerce s = k ↔ s = k := by
  constructor
  · refine eq_of_coerce_eq fun hmem => ?_
    rw [runes_of_ascii hk] at hmem
    obtain ⟨b, hb, heq⟩ := mem_map.mp hmem
    have hlt := hk b hb
    rw [Option.some.inj heq, runeError] at hlt
    omega
  · rintro rfl
    exact coerce_eq_self (validUtf8_of_ascii hk)

theorem eq_cons_of_coerce (hc : c.toNat < 128) (h : coerce s = c :: t) :
    ∃ s', s = c :: s' ∧ coerce s' = t := by
  have hscalar : IsScalar c.toNat := .inl (by omega)
  have hrunes := runes_coerce s
  rw [h, ← singleton_append, ← encodeRune_ascii hc, runes_encodeRune hscalar] at hrunes
  rcases s with _ | ⟨a, s⟩
  · cases h
  · rcases decodeRune_cases a s with ⟨r, s', hr, hs, -⟩ | hd
    · rw [hs, runes_encodeRune hr, map_cons] at hrunes
      obtain rfl : c.toNat = r := Option.some.inj (cons.inj hrunes).1
      rw [encodeRune_ascii hc, singleton_append] at hs
      refine ⟨s', hs, ?_⟩
      have hcoerce : coerce (c :: s') = c :: coerce s' := by
        rw [← singleton_append, ← encodeRune_ascii hc, coerce, runes_encodeRune hscalar,
          flatMap_cons, Option.getD_some, encodeRune_ascii hc]
        rfl
      rw [hs, hcoerce] at h
      exact (cons.inj h).2
    · rw [runes_bad hd, map_cons] at hrunes
      have hrune : c.toNat = runeError := Option.some.inj (cons.inj hrunes).1
      rw [runeError] at hrune
      omega

theorem isPrefix_of_coerce : ∀ {p s : Bytes}, IsAscii p → p <+: coerce s → p <+: s
  | [], _, _, _ => nil_prefix
  | c :: p, s, hp, ⟨t, ht⟩ => by
    obtain ⟨s', rfl, hs'⟩ := eq_cons_of_coerce (hp c mem_cons_self) ht.symm
    rw [cons_prefix_cons]
    exact ⟨rfl, isPrefix_of_coerce (fun b hb => hp b (mem_cons_of_mem _ hb)) ⟨t, hs'.symm⟩⟩

theorem eq_of_runes_eq (hs : validUtf8 s) (h : runes s = runes t) : s = t := by
  have ht : validUtf8 t := by
    rw [validUtf8_iff] at hs ⊢
    rwa [← h]
  rw [← coerce_eq_self hs, ← coerce_eq_self ht, coerce, coerce, h]

/-! ## Cutting valid strings -/

theorem validUtf8_append (hs : validUtf8 s) (t : Bytes) : validUtf8 (s ++ t) = validUtf8 t := by
  induction s using runes_induction with
  | nil => rfl
  | rune r s _ ih =>
    rw [validUtf8_encodeRune_append] at hs
    rw [append_assoc, validUtf8_encodeRune_append]
    exact ih hs
  | bad a s hd _ =>
    rw [validUtf8_iff, runes_bad hd] at hs
    exact absurd mem_cons_self hs

theorem encodeRune_eq_cons : ∃ a t, encodeRune r = a :: t
    ∧ (r < 128 ∧ a.toNat = r ∨ 128 ≤ r ∧ 0xBF < a.toNat) ∧ ∀ b ∈ t, isCont b := by
  have hcont : ∀ n, isCont (ofNat (0x80 + n % 64)) := by
    intro n
    simp only [isCont, toNat_ofNat_of_lt' (show 0x80 + n % 64 < 256 by omega),
      Bool.and_eq_true, decide_eq_true_eq]
    omega
  have hlead : ∀ n, n < 256 → (ofNat n).toNat = n := fun n => toNat_ofNat_of_lt'
  unfold encodeRune
  split
  · exact ⟨_, _, rfl, .inl ⟨by omega, hlead r (by omega)⟩, forall_mem_nil _⟩
  · split
    · exact ⟨_, _, rfl, .inr ⟨by omega, by rw [hlead _ (by omega)]; omega⟩,
        forall_mem_singleton.mpr (hcont r)⟩
    · split
      · exact ⟨_, _, rfl, .inr ⟨by omega, by decide +kernel⟩, by decide +kernel⟩
      · next hr =>
        unfold IsScalar at hr
        split
        · exact ⟨_, _, rfl, .inr ⟨by omega, by rw [hlead _ (by omega)]; omega⟩,
            forall_mem_cons.mpr ⟨hcont _, forall_mem_singleton.mpr (hcont r)⟩⟩
        · exact ⟨_, _, rfl, .inr ⟨by omega, by rw [hlead _ (by omega)]; omega⟩,
            forall_mem_cons.mpr ⟨hcont _, forall_mem_cons.mpr
              ⟨hcont _, forall_mem_singleton.mpr (hcont r)⟩⟩⟩

theorem validUtf8_left {r : Nat} (h : validUtf8 (s ++ (encodeRune r ++ t))) : validUtf8 s := by
  induction hn : s.length using Nat.strong_induction_on generalizing s with
  | _ n ih =>
    cases s with
    | nil => rfl
    | cons a s =>
      rcases decodeRune_cases a (s ++ (encodeRune r ++ t)) with ⟨r₀, t₀, -, heq, -⟩ | hbad
      · rw [← cons_append] at heq
        rcases append_eq_append_iff.mp heq with ⟨u, hu, hrest⟩ | ⟨u, hu, rfl⟩
        · -- the cut is within the first rune: it is at its end
          cases u with
          | nil =>
            rw [append_nil] at hu
            rw [← hu, ← append_nil (encodeRune r₀), validUtf8_encodeRune_append]
            rfl
          | cons c u =>
            obtain ⟨b, v, hb, hlead, -⟩ := encodeRune_eq_cons r
            obtain ⟨b₀, v₀, hb₀, -, hcont⟩ := encodeRune_eq_cons r₀
            rw [hb, cons_append, cons_append] at hrest
            rw [hb₀, cons_append] at hu
            have hc : isCont c := hcont c ((cons.inj hu).2 ▸ by simp)
            rw [← (cons.inj hrest).1] at hc
            simp only [isCont, Bool.and_eq_true, decide_eq_true_eq] at hc
            omega
        · rw [hu, append_assoc, validUtf8_encodeRune_append] at h
          rw [hu, validUtf8_encodeRune_append]
          refine ih u.length ?_ h rfl
          have hlen := congrArg length hu
          have hpos := encodeRune_length_pos r₀
          rw [length_append] at hlen
          omega
      · rw [cons_append, validUtf8_iff, runes_bad hbad] at h
        exact absurd mem_cons_self h

end Go
