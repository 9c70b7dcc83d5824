import TptIdentity.GoCrypto
import TptIdentity.GoDecimal

/-!
# Package didcomm: AES key wrap

`aesKeyWrap` and `aesKeyUnwrap` (RFC 3394) loop over the same rounds in opposite orders, and a
step of each undoes one of the other. So unwrapping returns what was wrapped, and accepts
nothing else (`aesKeyWrap_aesKeyUnwrap`).
-/

namespace TptIdentity.Didcomm

open Go List

def aesKWDefaultIV : Bytes := replicate 8 0xA6

structure WrapState where
  a : Bytes
  r : Bytes

def blockAt (r : Bytes) (i : Nat) : Bytes := (r.drop (i * 8)).take 8

def copyAt (r : Bytes) (i : Nat) (b : Bytes) : Bytes :=
  r.take (i * 8) ++ b ++ r.drop (i * 8 + b.length)

def counter (n j i : Nat) : UInt64 := UInt64.ofNat (n * j + i + 1)

def wrapStep (encrypt : Bytes → Bytes) (n : Nat) (s : WrapState) (ji : Nat × Nat) : WrapState :=
  let buf := encrypt (s.a ++ blockAt s.r ji.2)
  ⟨putUint64 (uint64 buf ^^^ counter n ji.1 ji.2), copyAt s.r ji.2 (buf.drop 8)⟩

def unwrapStep (decrypt : Bytes → Bytes) (n : Nat) (s : WrapState) (ji : Nat × Nat) : WrapState :=
  let buf := decrypt (putUint64 (uint64 s.a ^^^ counter n ji.1 ji.2) ++ blockAt s.r ji.2)
  ⟨buf.take 8, copyAt s.r ji.2 (buf.drop 8)⟩

def rounds (n : Nat) : List (Nat × Nat) :=
  (range 6).flatMap fun j => (range n).map fun i => (j, i)

def roundsDown (n : Nat) : List (Nat × Nat) :=
  (range 6).reverse.flatMap fun j => (range n).reverse.map fun i => (j, i)

def keySizeError (key : Bytes) : Option Err :=
  if key.length = 16 ∨ key.length = 24 ∨ key.length = 32 then none
  else some (.new "crypto/aes: invalid key size %d" [utoa key.length])

def aesKeyWrap (P : JoseCrypto) (kek plaintext : Bytes) : Res Bytes :=
  if plaintext.length < 16 ∨ plaintext.length % 8 ≠ 0 then
    .err (.new "aes-kw: plaintext must be ≥16 bytes and a multiple of 8" [])
  else
    match keySizeError kek with
    | some e => .err e
    | none =>
      let n := plaintext.length / 8
      let s := (rounds n).foldl (wrapStep (P.aesEncrypt kek) n) ⟨aesKWDefaultIV, plaintext⟩
      .ok (s.a ++ s.r)

def aesKeyUnwrap (P : JoseCrypto) (kek ciphertext : Bytes) : Res Bytes :=
  if ciphertext.length < 24 ∨ ciphertext.length % 8 ≠ 0 then
    .err (.new "aes-kw: ciphertext must be ≥24 bytes and a multiple of 8" [])
  else
    match keySizeError kek with
    | some e => .err e
    | none =>
      let n := ciphertext.length / 8 - 1
      let s := (roundsDown n).foldl (unwrapStep (P.aesDecrypt kek) n)
        ⟨ciphertext.take 8, ciphertext.drop 8⟩
      if s.a ≠ aesKWDefaultIV then
        .err (.new "aes-kw: integrity check failed — wrong key or corrupted ciphertext" [])
      else .ok s.r

/-! ## Loops run backwards -/

theorem roundsDown_eq (n : Nat) : roundsDown n = (rounds n).reverse := by
  simp [roundsDown, rounds, reverse_flatMap, Function.comp_def, map_reverse]

section Undo

variable {S A : Type} {f g : S → A → S} {Inv : S → Prop}

theorem foldl_reverse_foldl {l : List A} {s : S}
    (hf : ∀ s, ∀ x ∈ l, Inv s → Inv (f s x) ∧ g (f s x) x = s) (hs : Inv s) :
    Inv (l.foldl f s) ∧ l.reverse.foldl g (l.foldl f s) = s := by
  induction l generalizing s with
  | nil => exact ⟨hs, rfl⟩
  | cons x l ih =>
    obtain ⟨hx, hundo⟩ := hf s x mem_cons_self hs
    obtain ⟨hinv, hrest⟩ := ih (fun s y hy => hf s y (mem_cons_of_mem _ hy)) hx
    rw [foldl_cons, reverse_cons, foldl_append, hrest]
    exact ⟨hinv, hundo⟩

end Undo

/-! ## A step and its inverse -/

structure WrapState.Sized (n : Nat) (s : WrapState) : Prop where
  a : s.a.length = 8
  r : s.r.length = n * 8

variable {r b plaintext wrapped : Bytes} {i : Nat}

theorem length_blockAt {n : Nat} (hr : r.length = n * 8) (hi : i < n) :
    (blockAt r i).length = 8 := by
  simp only [blockAt, length_take, length_drop]
  omega

theorem length_copyAt {n : Nat} (hr : r.length = n * 8) (hi : i < n)
    (hb : b.length = 8) : (copyAt r i b).length = n * 8 := by
  simp only [copyAt, length_append, length_take, length_drop]
  omega

theorem blockAt_copyAt {n : Nat} (hr : r.length = n * 8) (hi : i < n)
    (hb : b.length = 8) : blockAt (copyAt r i b) i = b := by
  have htake : (r.take (i * 8)).length = i * 8 := by
    rw [length_take]
    omega
  rw [blockAt, copyAt, append_assoc, drop_left' htake, take_left' hb]

theorem copyAt_copyAt {n : Nat} (hr : r.length = n * 8) (hi : i < n)
    (hb : b.length = 8) : copyAt (copyAt r i b) i (blockAt r i) = r := by
  have htake : (r.take (i * 8)).length = i * 8 := by
    rw [length_take]
    omega
  have hlen := length_blockAt hr hi
  have hfirst : (copyAt r i b).take (i * 8) = r.take (i * 8) := by
    rw [copyAt, append_assoc, take_left' htake]
  have hlast : (copyAt r i b).drop (i * 8 + 8) = r.drop (i * 8 + 8) := by
    rw [copyAt, hb, drop_left' (by simp only [length_append]; omega)]
  rw [copyAt, hlen, hfirst, hlast, blockAt, append_assoc, ← drop_drop,
    take_append_drop, take_append_drop]

structure BlockInverse (f undo : Bytes → Bytes) : Prop where
  length : ∀ b, b.length = JoseCrypto.blockSize → (f b).length = JoseCrypto.blockSize
  undo : ∀ b, b.length = JoseCrypto.blockSize → undo (f b) = b

theorem blockInverse_of_lawful {P : JoseCrypto} (hP : P.Lawful) (key : Bytes) :
    BlockInverse (P.aesEncrypt key) (P.aesDecrypt key) :=
  ⟨hP.aes_length key, hP.aes_inv key⟩

variable {encrypt decrypt : Bytes → Bytes} {n : Nat} {s : WrapState} {ji : Nat × Nat}

theorem length_buffer {a : Bytes} (ha : a.length = 8) (hr : r.length = n * 8)
    (hi : i < n) : (a ++ blockAt r i).length = JoseCrypto.blockSize := by
  rw [length_append, ha, length_blockAt hr hi]
  rfl

theorem length_drop_buffer (hb : b.length = JoseCrypto.blockSize) : (b.drop 8).length = 8 := by
  rw [length_drop, hb]
  rfl

theorem length_take_buffer (hb : b.length = JoseCrypto.blockSize) : (b.take 8).length = 8 := by
  rw [length_take, hb]
  rfl

theorem xor_counter_twice (x : UInt64) (j i : Nat) : x ^^^ counter n j i ^^^ counter n j i = x := by
  rw [UInt64.xor_assoc, UInt64.xor_self, UInt64.xor_zero]

theorem wrapStep_sized (hblock : BlockInverse encrypt decrypt) (hs : s.Sized n) (hi : ji.2 < n) :
    (wrapStep encrypt n s ji).Sized n :=
  ⟨length_putUint64 _, length_copyAt hs.r hi
    (length_drop_buffer (hblock.length _ (length_buffer hs.a hs.r hi)))⟩

theorem unwrapStep_sized (hblock : BlockInverse decrypt encrypt) (hs : s.Sized n)
    (hi : ji.2 < n) : (unwrapStep decrypt n s ji).Sized n := by
  have hbuf := hblock.length _ (length_buffer
    (length_putUint64 (uint64 s.a ^^^ counter n ji.1 ji.2)) hs.r hi)
  exact ⟨length_take_buffer hbuf, length_copyAt hs.r hi (length_drop_buffer hbuf)⟩

theorem unwrapStep_wrapStep (hblock : BlockInverse encrypt decrypt) (hs : s.Sized n)
    (hi : ji.2 < n) : unwrapStep decrypt n (wrapStep encrypt n s ji) ji = s := by
  have hbuf := length_buffer hs.a hs.r hi
  have hlen := hblock.length _ hbuf
  have hundo := hblock.undo _ hbuf
  simp only [wrapStep]
  generalize encrypt (s.a ++ blockAt s.r ji.2) = c at hlen hundo
  have hdrop := length_drop_buffer hlen
  have htake : putUint64 (uint64 c) = c.take 8 := by
    have h := putUint64_uint64 (length_take_buffer hlen)
    rwa [uint64, take_take, Nat.min_self] at h
  simp only [unwrapStep]
  rw [uint64_putUint64, xor_counter_twice, htake, blockAt_copyAt hs.r hi hdrop,
    take_append_drop, hundo, take_left' hs.a, drop_left' hs.a, copyAt_copyAt hs.r hi hdrop]

theorem wrapStep_unwrapStep (hblock : BlockInverse decrypt encrypt) (hs : s.Sized n)
    (hi : ji.2 < n) : wrapStep encrypt n (unwrapStep decrypt n s ji) ji = s := by
  have hbuf := length_buffer (length_putUint64 (uint64 s.a ^^^ counter n ji.1 ji.2)) hs.r hi
  have hlen := hblock.length _ hbuf
  have hundo := hblock.undo _ hbuf
  simp only [unwrapStep]
  generalize decrypt (putUint64 (uint64 s.a ^^^ counter n ji.1 ji.2) ++ blockAt s.r ji.2) = c
    at hlen hundo
  have hdrop := length_drop_buffer hlen
  have hfirst : ∀ (x : UInt64) (b : Bytes), uint64 (putUint64 x ++ b) = x := by
    intro x b
    have h := uint64_putUint64 x
    rw [uint64, take_of_length_le (length_putUint64 x).le] at h
    rw [uint64, take_left' (length_putUint64 x), h]
  simp only [wrapStep]
  rw [blockAt_copyAt hs.r hi hdrop, take_append_drop, hundo, hfirst, xor_counter_twice,
    putUint64_uint64 hs.a, drop_left' (length_putUint64 _), copyAt_copyAt hs.r hi hdrop]

/-! ## Round trips -/

theorem snd_lt_of_mem_rounds (h : ji ∈ rounds n) : ji.2 < n := by
  simp only [rounds, mem_flatMap, mem_map, mem_range] at h
  obtain ⟨j, -, i, hi, rfl⟩ := h
  exact hi

theorem roundsDown_rounds (hblock : BlockInverse encrypt decrypt) (hs : s.Sized n) :
    ((rounds n).foldl (wrapStep encrypt n) s).Sized n
      ∧ (roundsDown n).foldl (unwrapStep decrypt n) ((rounds n).foldl (wrapStep encrypt n) s)
        = s := by
  rw [roundsDown_eq]
  refine foldl_reverse_foldl (fun s ji hji hs => ?_) hs
  have hi := snd_lt_of_mem_rounds hji
  exact ⟨wrapStep_sized hblock hs hi, unwrapStep_wrapStep hblock hs hi⟩

theorem rounds_roundsDown (hblock : BlockInverse decrypt encrypt) (hs : s.Sized n) :
    ((roundsDown n).foldl (unwrapStep decrypt n) s).Sized n
      ∧ (rounds n).foldl (wrapStep encrypt n) ((roundsDown n).foldl (unwrapStep decrypt n) s)
        = s := by
  rw [← reverse_reverse (rounds n), ← roundsDown_eq]
  refine foldl_reverse_foldl (fun s ji hji hs => ?_) hs
  rw [roundsDown_eq, mem_reverse] at hji
  have hi := snd_lt_of_mem_rounds hji
  exact ⟨unwrapStep_sized hblock hs hi, wrapStep_unwrapStep hblock hs hi⟩

variable {P : JoseCrypto} {key : Bytes}

theorem aesKeyWrap_eq_ok : aesKeyWrap P key plaintext = .ok wrapped ↔
    16 ≤ plaintext.length ∧ plaintext.length % 8 = 0 ∧ keySizeError key = none
      ∧ ∃ s : WrapState, (rounds (plaintext.length / 8)).foldl
          (wrapStep (P.aesEncrypt key) (plaintext.length / 8)) ⟨aesKWDefaultIV, plaintext⟩ = s
        ∧ s.a ++ s.r = wrapped := by
  rw [aesKeyWrap, Res.ite_err_eq_ok, not_or, not_not, Nat.not_lt, and_assoc]
  cases hkey : keySizeError key with
  | some e => simp
  | none => simp

theorem aesKeyUnwrap_eq_ok :
    aesKeyUnwrap P key wrapped = .ok plaintext ↔
      24 ≤ wrapped.length ∧ wrapped.length % 8 = 0 ∧ keySizeError key = none
        ∧ (roundsDown (wrapped.length / 8 - 1)).foldl
            (unwrapStep (P.aesDecrypt key) (wrapped.length / 8 - 1))
            ⟨wrapped.take 8, wrapped.drop 8⟩ = ⟨aesKWDefaultIV, plaintext⟩ := by
  rw [aesKeyUnwrap, Res.ite_err_eq_ok, not_or, not_not, Nat.not_lt, and_assoc]
  cases hkey : keySizeError key with
  | some e => simp
  | none =>
    simp only [Res.ite_err_eq_ok, Res.ok.injEq, not_not, true_and]
    generalize (roundsDown _).foldl _ _ = s
    rw [WrapState.mk.injEq]

theorem aesKeyUnwrap_aesKeyWrap (hblock : BlockInverse (P.aesEncrypt key) (P.aesDecrypt key))
    (h : aesKeyWrap P key plaintext = .ok wrapped) :
    aesKeyUnwrap P key wrapped = .ok plaintext := by
  obtain ⟨hlen, hmod, hkey, s, hs, rfl⟩ := aesKeyWrap_eq_ok.mp h
  have hsized : WrapState.Sized (plaintext.length / 8) ⟨aesKWDefaultIV, plaintext⟩ :=
    ⟨rfl, by simp only; omega⟩
  obtain ⟨hfinal, hback⟩ := roundsDown_rounds hblock hsized
  rw [hs] at hfinal hback
  have ha := hfinal.a
  have hr := hfinal.r
  have hn : (s.a ++ s.r).length / 8 - 1 = plaintext.length / 8 := by
    rw [length_append]
    omega
  refine aesKeyUnwrap_eq_ok.mpr ⟨?_, ?_, hkey, ?_⟩
  · rw [length_append]
    omega
  · rw [length_append]
    omega
  · rw [hn, take_left' ha, drop_left' ha, hback]

theorem aesKeyWrap_aesKeyUnwrap (hblock : BlockInverse (P.aesDecrypt key) (P.aesEncrypt key))
    (h : aesKeyUnwrap P key wrapped = .ok plaintext) :
    aesKeyWrap P key plaintext = .ok wrapped := by
  obtain ⟨hlen, hmod, hkey, hs⟩ := aesKeyUnwrap_eq_ok.mp h
  have hsized : WrapState.Sized (wrapped.length / 8 - 1) ⟨wrapped.take 8, wrapped.drop 8⟩ := by
    refine ⟨?_, ?_⟩
    · simp only [length_take]
      omega
    · simp only [length_drop]
      omega
  obtain ⟨hfinal, hback⟩ := rounds_roundsDown hblock hsized
  rw [hs] at hfinal hback
  have hr : plaintext.length = (wrapped.length / 8 - 1) * 8 := hfinal.r
  have hn : plaintext.length / 8 = wrapped.length / 8 - 1 := by omega
  refine aesKeyWrap_eq_ok.mpr ⟨by omega, by omega, hkey, _, rfl, ?_⟩
  rw [hn, hback, take_append_drop]

/-- Wrapping and unwrapping are inverse to each other, so exactly the wrappings are accepted. -/
theorem aesKeyWrap_bijective (P : JoseCrypto) (kek : Bytes)
    (hkek : kek.length = 16 ∨ kek.length = 24 ∨ kek.length = 32)
    (henc : BlockInverse (P.aesEncrypt kek) (P.aesDecrypt kek))
    (hdec : BlockInverse (P.aesDecrypt kek) (P.aesEncrypt kek)) :
    (∀ p : Bytes, 16 ≤ p.length → p.length % 8 = 0 →
        ∃ c, aesKeyWrap P kek p = .ok c ∧ aesKeyUnwrap P kek c = .ok p)
      ∧ (∀ c p : Bytes, aesKeyUnwrap P kek c = .ok p → aesKeyWrap P kek p = .ok c)
      ∧ ∀ c : Bytes, (∃ p, aesKeyUnwrap P kek c = .ok p) ↔ ∃ p, aesKeyWrap P kek p = .ok c := by
  refine ⟨fun p hlen hmod => ?_, fun c p => aesKeyWrap_aesKeyUnwrap hdec, fun c => ?_⟩
  · have hkey : keySizeError kek = none := if_pos hkek
    obtain ⟨c, hwrap⟩ : ∃ c, aesKeyWrap P kek p = .ok c :=
      ⟨_, aesKeyWrap_eq_ok.mpr ⟨hlen, hmod, hkey, _, rfl, rfl⟩⟩
    exact ⟨c, hwrap, aesKeyUnwrap_aesKeyWrap henc hwrap⟩
  · constructor
    · rintro ⟨p, h⟩
      exact ⟨p, aesKeyWrap_aesKeyUnwrap hdec h⟩
    · rintro ⟨p, h⟩
      exact ⟨p, aesKeyUnwrap_aesKeyWrap henc h⟩

theorem aesKeyWrap_bijective_three_blocks :
    (∃ c, aesKeyWrap .standIn (replicate 16 7) (replicate 24 5) = .ok c
        ∧ aesKeyUnwrap .standIn (replicate 16 7) c = .ok (replicate 24 5))
      ∧ ∀ c p : Bytes, aesKeyUnwrap .standIn (replicate 16 7) c = .ok p →
          aesKeyWrap .standIn (replicate 16 7) p = .ok c := by
  have h := aesKeyWrap_bijective .standIn (replicate 16 7) (.inl rfl)
    ⟨fun _ h => h, fun _ _ => rfl⟩ ⟨fun _ h => h, fun _ _ => rfl⟩
  exact ⟨h.1 _ (by decide) (by decide), h.2.1⟩

end TptIdentity.Didcomm
