import TptIdentity.GoUtf8

/-!
# base64.RawURLEncoding

The unpadded URL alphabet, with a decoder as lenient as the library's: it skips line breaks and
does not check unused bits. Decoding inverts encoding (`decodeB64_encodeB64`), not the other way
round.
-/

namespace Go

open List UInt8

/-! ## Groups of six bits -/

def sextets : Bytes → List Nat
  | a :: b :: c :: rest =>
    let v := a.toNat * 65536 + b.toNat * 256 + c.toNat
    v / 262144 :: v / 4096 % 64 :: v / 64 % 64 :: v % 64 :: sextets rest
  | [a, b] =>
    let v := a.toNat * 65536 + b.toNat * 256
    [v / 262144, v / 4096 % 64, v / 64 % 64]
  | [a] =>
    let v := a.toNat * 65536
    [v / 262144, v / 4096 % 64]
  | [] => []

def unsextets : List Nat → Option Bytes
  | a :: b :: c :: d :: rest => do
    let v := a * 262144 + b * 4096 + c * 64 + d
    let tail ← unsextets rest
    return ofNat (v / 65536) :: ofNat (v / 256) :: ofNat v :: tail
  | [a, b, c] =>
    let v := a * 262144 + b * 4096 + c * 64
    some [ofNat (v / 65536), ofNat (v / 256)]
  | [a, b] =>
    let v := a * 262144 + b * 4096
    some [ofNat (v / 65536)]
  | [_] => none
  | [] => some []

theorem ofNat_eq_of_mod {n : Nat} {b : UInt8} (h : n % 256 = b.toNat) : UInt8.ofNat n = b := by
  apply UInt8.toNat_inj.mp
  simpa using h

theorem unsextets_sextets : ∀ s : Bytes, unsextets (sextets s) = some s
  | a :: b :: c :: rest => by
    have ih := unsextets_sextets rest
    have ha := a.toNat_lt
    have hb := b.toNat_lt
    have hc := c.toNat_lt
    simp only [sextets, unsextets, ih, Option.pure_def, Option.bind_eq_bind,
      Option.bind_some, Option.some.injEq, List.cons.injEq, and_true]
    refine ⟨ofNat_eq_of_mod ?_, ofNat_eq_of_mod ?_, ofNat_eq_of_mod ?_⟩ <;> omega
  | [a, b] => by
    have ha := a.toNat_lt
    have hb := b.toNat_lt
    simp only [sextets, unsextets, Option.some.injEq, List.cons.injEq, and_true]
    refine ⟨ofNat_eq_of_mod ?_, ofNat_eq_of_mod ?_⟩ <;> omega
  | [a] => by
    have ha := a.toNat_lt
    simp only [sextets, unsextets, Option.some.injEq, List.cons.injEq, and_true]
    refine ofNat_eq_of_mod ?_
    omega
  | [] => rfl

theorem sextets_lt : ∀ s : Bytes, ∀ v ∈ sextets s, v < 64
  | a :: b :: c :: rest, v, hv => by
    have ha := a.toNat_lt
    have hb := b.toNat_lt
    have hc := c.toNat_lt
    simp only [sextets, mem_cons] at hv
    rcases hv with rfl | rfl | rfl | rfl | hv
    · omega
    · omega
    · omega
    · omega
    · exact sextets_lt rest v hv
  | [a, b], v, hv => by
    have ha := a.toNat_lt
    have hb := b.toNat_lt
    simp only [sextets, mem_cons, not_mem_nil, or_false] at hv
    omega
  | [a], v, hv => by
    have ha := a.toNat_lt
    simp only [sextets, mem_cons, not_mem_nil, or_false] at hv
    omega
  | [], v, hv => by simp [sextets] at hv

theorem length_sextets : ∀ s : Bytes, (sextets s).length = (4 * s.length + 2) / 3
  | a :: b :: c :: rest => by
    have ih := length_sextets rest
    simp only [sextets, length_cons, ih]
    omega
  | [a, b] => by simp [sextets]
  | [a] => by simp [sextets]
  | [] => rfl

/-! ## The alphabet -/

def b64Char (v : Nat) : UInt8 :=
  if v < 26 then ofNat (65 + v)
  else if v < 52 then ofNat (97 + (v - 26))
  else if v < 62 then ofNat (48 + (v - 52))
  else if v = 62 then 45
  else 95

def b64Val (c : UInt8) : Option Nat :=
  let n := c.toNat
  if 65 ≤ n ∧ n ≤ 90 then some (n - 65)
  else if 97 ≤ n ∧ n ≤ 122 then some (n - 97 + 26)
  else if 48 ≤ n ∧ n ≤ 57 then some (n - 48 + 52)
  else if n = 45 then some 62
  else if n = 95 then some 63
  else none

def isB64 (c : UInt8) : Bool := (b64Val c).isSome

theorem b64Val_b64Char : ∀ v < 64, b64Val (b64Char v) = some v := by decide

def encodeB64 (s : Bytes) : Bytes := (sextets s).map b64Char

def decodeB64 (s : Bytes) : Res Bytes :=
  match (s.filter fun c => c ≠ 10 ∧ c ≠ 13).mapM b64Val >>= unsextets with
  | some b => .ok b
  | none => .err (.new "illegal base64 data at input byte" [])

theorem length_encodeB64 (s : Bytes) : (encodeB64 s).length = (4 * s.length + 2) / 3 := by
  rw [encodeB64, length_map, length_sextets]

theorem isB64_of_mem_encodeB64 {s : Bytes} : ∀ c ∈ encodeB64 s, isB64 c := by
  intro c hc
  obtain ⟨v, hv, rfl⟩ := List.mem_map.mp hc
  rw [isB64, b64Val_b64Char v (sextets_lt s v hv)]
  rfl

theorem isAscii_encodeB64 (s : Bytes) : IsAscii (encodeB64 s) := by
  intro c hc
  obtain ⟨v, hv, rfl⟩ := List.mem_map.mp hc
  have h : ∀ v < 64, (b64Char v).toNat < 128 := by decide
  exact h v (sextets_lt s v hv)

theorem validUtf8_encodeB64 (s : Bytes) : validUtf8 (encodeB64 s) :=
  validUtf8_of_ascii (isAscii_encodeB64 s)

theorem not_mem_encodeB64 {c : UInt8} (hc : isB64 c = false) (s : Bytes) :
    c ∉ encodeB64 s := fun hmem => by
  rw [isB64_of_mem_encodeB64 c hmem] at hc
  cases hc

theorem mapM_b64Val : ∀ {l : List Nat}, (∀ v ∈ l, v < 64) → (l.map b64Char).mapM b64Val = some l
  | [], _ => rfl
  | v :: l, h => by
    have ih := mapM_b64Val fun w hw => h w (mem_cons_of_mem _ hw)
    simp [mapM_cons, b64Val_b64Char v (h v (mem_cons_self ..)), ih]

@[simp] theorem decodeB64_encodeB64 (s : Bytes) : decodeB64 (encodeB64 s) = .ok s := by
  have hfilter : (encodeB64 s).filter (fun c => c ≠ 10 ∧ c ≠ 13) = encodeB64 s := by
    refine List.filter_eq_self.mpr fun c hc => ?_
    have hne : ∀ d, isB64 d = false → c ≠ d := fun d hd h =>
      not_mem_encodeB64 hd s (h ▸ hc)
    simpa using ⟨hne 10 rfl, hne 13 rfl⟩
  rw [decodeB64, hfilter, encodeB64, mapM_b64Val (sextets_lt s)]
  simp [unsextets_sextets]

theorem encodeB64_injective : Function.Injective encodeB64 := by
  intro s t h
  have := decodeB64_encodeB64 s
  rw [h, decodeB64_encodeB64] at this
  exact (Res.ok.inj this).symm

theorem encodeB64_ne_nil {s : Bytes} (h : s ≠ []) : encodeB64 s ≠ [] := fun h0 =>
  h (encodeB64_injective (h0.trans rfl))

end Go
