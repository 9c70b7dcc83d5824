import TptIdentity.GoStrings
import TptIdentity.GoUtf8

/-!
# Text

`encoding/hex`, the functions of package `strings` that look at runes, and the text of errors.
`unicode.ToLower` outside ASCII is a parameter.
-/

namespace Go

open List UInt8

/-! ## Hexadecimal -/

def hexDigit (d : Nat) : UInt8 := if d < 10 then ofNat (48 + d) else ofNat (87 + d)

def hexVal (b : UInt8) : Option Nat :=
  if 48 ≤ b.toNat ∧ b.toNat ≤ 57 then some (b.toNat - 48)
  else if 97 ≤ b.toNat ∧ b.toNat ≤ 102 then some (b.toNat - 87)
  else if 65 ≤ b.toNat ∧ b.toNat ≤ 70 then some (b.toNat - 55)
  else none

theorem hexVal_hexDigit : ∀ d, d < 16 → hexVal (hexDigit d) = some d := by decide

def encodeHex (b : Bytes) : Bytes :=
  b.flatMap fun x => [hexDigit (x.toNat / 16), hexDigit (x.toNat % 16)]

def decodeHex : Bytes → Res Bytes
  | [] => .ok []
  | [c] =>
    match hexVal c with
    | none => .err (.new "encoding/hex: invalid byte: %#U" [[c]])
    | some _ => .err (.new "encoding/hex: odd length hex string" [])
  | c :: d :: s =>
    match hexVal c, hexVal d with
    | none, _ => .err (.new "encoding/hex: invalid byte: %#U" [[c]])
    | some _, none => .err (.new "encoding/hex: invalid byte: %#U" [[d]])
    | some m, some n => do return ofNat (16 * m + n) :: (← decodeHex s)

theorem encodeHex_ne_nil {b : Bytes} (h : b ≠ []) : encodeHex b ≠ [] := by
  obtain ⟨x, b, rfl⟩ := exists_cons_of_ne_nil h
  simp [encodeHex]

variable {s t : Bytes} (b : Bytes) (fuel : Nat) (word : Bytes)

theorem length_encodeHex : (encodeHex b).length = 2 * b.length := by
  induction b with
  | nil => rfl
  | cons x b ih =>
    rw [encodeHex, flatMap_cons, length_append]
    change 2 + (encodeHex b).length = _
    rw [ih, length_cons]
    omega

theorem decodeHex_encodeHex : decodeHex (encodeHex b) = .ok b := by
  induction b with
  | nil => rfl
  | cons x b ih =>
    have hx : x.toNat < 256 := x.toNat_lt
    have hdiv : x.toNat / 16 < 16 := by omega
    have hjoin : ofNat (16 * (x.toNat / 16) + x.toNat % 16) = x := by
      rw [Nat.div_add_mod]
      exact UInt8.ofNat_toNat
    show decodeHex (hexDigit (x.toNat / 16) :: hexDigit (x.toNat % 16) :: encodeHex b) = _
    simp only [decodeHex, hexVal_hexDigit _ hdiv, hexVal_hexDigit _ (Nat.mod_lt _ (by decide)),
      ih, hjoin]
    rfl

theorem encodeHex_injective : Function.Injective encodeHex := by
  intro a b h
  have := decodeHex_encodeHex a
  rw [h, decodeHex_encodeHex] at this
  exact (Res.ok.inj this).symm

theorem hexVal_of_mem_encodeHex {b : Bytes} {c : UInt8} (h : c ∈ encodeHex b) :
    (hexVal c).isSome := by
  obtain ⟨x, -, hc⟩ := mem_flatMap.mp h
  have hx : x.toNat < 256 := x.toNat_lt
  rcases mem_cons.mp hc with rfl | hc
  · rw [hexVal_hexDigit _ (by omega)]
    rfl
  · rw [mem_singleton.mp hc, hexVal_hexDigit _ (Nat.mod_lt _ (by decide))]
    rfl

/-! ## UUIDs -/

/-- `uuid.NewString()` as the `i`-th read. It panics when there is no randomness. -/
def newUUID (rand : Rand) (i : Nat) : Res Bytes :=
  match rand.read i 16 with
  | .ok b =>
    let version := b.set 6 (ofNat ((b.getD 6 0).toNat % 16 + 64))
    let variant := version.set 8 (ofNat ((b.getD 8 0).toNat % 64 + 128))
    let hex := encodeHex variant
    .ok (hex.take 8 ++ 45 :: ((hex.drop 8).take 4 ++ 45 :: ((hex.drop 12).take 4
      ++ 45 :: ((hex.drop 16).take 4 ++ 45 :: hex.drop 20))))
  | .err _ => .panics "uuid: no randomness"
  | .panics reason => .panics reason

theorem isAscii_encodeHex : IsAscii (encodeHex b) := by
  intro c hc
  have hsome := hexVal_of_mem_encodeHex hc
  unfold hexVal at hsome
  split_ifs at hsome <;> first | omega | cases hsome

theorem isAscii_newUUID {rand : Rand} {i : Nat} {uuid : Bytes} (h : newUUID rand i = .ok uuid) :
    IsAscii uuid := by
  unfold newUUID at h
  cases hread : rand.read i 16 with
  | ok b =>
    rw [hread] at h
    obtain rfl := Res.ok.inj h
    have hhex := isAscii_encodeHex
    simp only [isAscii_append, isAscii_cons]
    exact ⟨(hhex _).take 8, by decide, ((hhex _).drop 8).take 4, by decide,
      ((hhex _).drop 12).take 4, by decide, ((hhex _).drop 16).take 4, by decide, (hhex _).drop 20⟩
  | err e =>
    rw [hread] at h
    cases h
  | panics reason =>
    rw [hread] at h
    cases h

/-! ## Strings -/

def contains (s sub : Bytes) : Bool :=
  (range (s.length + 1)).any fun i => sub.isPrefixOf (s.drop i)

def spaces : List Bytes :=
  ([9, 10, 11, 12, 13, 32, 0x85, 0xA0, 0x1680] ++ (range 11).map (0x2000 + ·)
    ++ [0x2028, 0x2029, 0x202F, 0x205F, 0x3000]).map encodeRune

def trimLeftSpace : Nat → Bytes → Bytes
  | 0, s => s
  | fuel + 1, s =>
    match spaces.find? fun sp => sp.isPrefixOf s with
    | some sp => trimLeftSpace fuel (s.drop sp.length)
    | none => s

def trimRightSpace : Nat → Bytes → Bytes
  | 0, s => s
  | fuel + 1, s =>
    match spaces.find? fun sp => sp.isSuffixOf s with
    | some sp => trimRightSpace fuel (s.take (s.length - sp.length))
    | none => s

def trimSpace (s : Bytes) : Bytes := trimRightSpace s.length (trimLeftSpace s.length s)

def toLower (lower : Nat → Nat) (s : Bytes) : Bytes :=
  (runes s).flatMap fun r =>
    let r := r.getD runeError
    encodeRune (if r < 128 then (if 65 ≤ r ∧ r ≤ 90 then r + 32 else r) else lower r)

def toUpper (upper : Nat → Nat) (s : Bytes) : Bytes :=
  (runes s).flatMap fun r =>
    let r := r.getD runeError
    encodeRune (if r < 128 then (if 97 ≤ r ∧ r ≤ 122 then r - 32 else r) else upper r)

/-- The loop of `strings.Fields`; `word` is the field being read. -/
def fieldsLoop : Nat → Bytes → Bytes → List Bytes
  | fuel + 1, word, b :: s =>
    match spaces.find? fun sp => sp.isPrefixOf (b :: s) with
    | some sp =>
      let rest := fieldsLoop fuel [] ((b :: s).drop sp.length)
      if word = [] then rest else word :: rest
    | none => fieldsLoop fuel (word ++ [b]) s
  | _, word, _ => if word = [] then [] else [word]

def fields (s : Bytes) : List Bytes := fieldsLoop s.length [] s

theorem mem_spaces {sp : Bytes} (h : sp ∈ spaces) : ∃ r, sp = encodeRune r := by
  obtain ⟨r, -, rfl⟩ := mem_map.mp h
  exact ⟨r, rfl⟩

theorem fieldsLoop_cons (b : UInt8) (s : Bytes) :
    (∃ r t, b :: s = encodeRune r ++ t ∧ fieldsLoop (fuel + 1) word (b :: s)
      = if word = [] then fieldsLoop fuel [] t else word :: fieldsLoop fuel [] t)
      ∨ fieldsLoop (fuel + 1) word (b :: s) = fieldsLoop fuel (word ++ [b]) s := by
  rw [fieldsLoop]
  cases hfind : spaces.find? fun sp => sp.isPrefixOf (b :: s) with
  | none => exact .inr rfl
  | some sp =>
    obtain ⟨r, rfl⟩ := mem_spaces (mem_of_find?_eq_some hfind)
    have hprefix := find?_some hfind
    obtain ⟨t, ht⟩ := isPrefixOf_iff_prefix.mp hprefix
    have hdrop : (b :: s).drop (encodeRune r).length = t := by rw [← ht, drop_left]
    refine .inl ⟨r, t, ht.symm, ?_⟩
    show (if word = [] then fieldsLoop fuel [] ((b :: s).drop (encodeRune r).length)
      else word :: fieldsLoop fuel [] ((b :: s).drop (encodeRune r).length)) = _
    rw [hdrop]

theorem fieldsLoop_nil : fieldsLoop fuel word [] = if word = [] then [] else [word] := by
  cases fuel with
  | zero => rfl
  | succ fuel => rfl

theorem length_le_of_encodeRune {b : UInt8} {r : Nat} (h : b :: s = encodeRune r ++ t) :
    t.length ≤ s.length := by
  have hlen := congrArg length h
  have hpos := encodeRune_length_pos r
  rw [length_append, length_cons] at hlen
  omega

theorem validUtf8_fieldsLoop : ∀ (fuel : Nat) (word s : Bytes), s.length ≤ fuel →
    (validUtf8 (word ++ s) ↔ ∀ w ∈ fieldsLoop fuel word s, validUtf8 w)
  | fuel, word, [], _ => by
    rw [fieldsLoop_nil, append_nil]
    split
    · next hnil => simp [hnil, show validUtf8 [] from rfl]
    · rw [forall_mem_singleton]
  | fuel + 1, word, b :: s, hlen => by
    rw [length_cons, Nat.add_le_add_iff_right] at hlen
    rcases fieldsLoop_cons fuel word b s with ⟨r, t, hs, hloop⟩ | hloop
    · have ht := validUtf8_fieldsLoop fuel [] t ((length_le_of_encodeRune hs).trans hlen)
      have hsplit : validUtf8 (word ++ (b :: s)) ↔ validUtf8 word ∧ validUtf8 t := by
        rw [hs]
        constructor
        · intro h
          have hword := validUtf8_left h
          rw [validUtf8_append hword, validUtf8_encodeRune_append] at h
          exact ⟨hword, h⟩
        · rintro ⟨hword, h⟩
          rwa [validUtf8_append hword, validUtf8_encodeRune_append]
      rw [hsplit, hloop]
      split
      · next hnil =>
        rw [hnil]
        exact (and_iff_right rfl).trans ht
      · rw [forall_mem_cons]
        exact and_congr_right fun _ => ht
    · rw [hloop, ← validUtf8_fieldsLoop fuel (word ++ [b]) s hlen, append_assoc]
      rfl

theorem validUtf8_of_fields_subset (ht : validUtf8 t) (h : fields s ⊆ fields t) : validUtf8 s :=
  (validUtf8_fieldsLoop s.length [] s le_rfl).mpr fun w hw =>
    (validUtf8_fieldsLoop t.length [] t le_rfl).mp ht w (h hw)

def queryEscape (s : Bytes) : Bytes :=
  let upper := fun d => if d < 10 then ofNat (48 + d) else ofNat (55 + d)
  s.flatMap fun b =>
    let n := b.toNat
    if (48 ≤ n ∧ n ≤ 57) ∨ (65 ≤ n ∧ n ≤ 90) ∨ (97 ≤ n ∧ n ≤ 122) ∨ n ∈ [45, 46, 95, 126] then [b]
    else if n = 32 then [43]
    else [37, upper (n / 16), upper (n % 16)]

/-! ## Error texts -/

/-- `%w` prints `inner`, any other verb the next operand as it is given. -/
def sprintf (inner : Bytes) : Bytes → List Bytes → Bytes
  | 37 :: 119 :: f, args => inner ++ sprintf inner f args
  | 37 :: _ :: f, arg :: args => arg ++ sprintf inner f args
  | c :: f, args => c :: sprintf inner f args
  | [], _ => []

def Err.is : Err → Err → Bool
  | .new format args, target => .new format args = target
  | .wrap format args e, target => .wrap format args e = target || e.is target

def Err.text : Err → Bytes
  | .new format args => sprintf [] (str format) args
  | .wrap format args e => sprintf e.text (str format) args

end Go
