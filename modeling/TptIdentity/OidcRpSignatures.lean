import Mathlib.Data.Nat.Size
import TptIdentity.OidcRp

/-!
# Upstream signatures

`verifyJWTSignature` panics on an Ed25519 key of the wrong size and on a DER signature whose
lengths lead out of it (`verifyJWTSignature_returns_iff`). `verifyECDSA_both_iff` says which DER
encodings are accepted.
-/

namespace TptIdentity.OidcRp

open Go List UInt8 Res

/-! ## Panics -/

variable {room n : Nat} {curve : Curve} {len : UInt8}

theorem returns_slice {b : Bytes} {lo hi : Nat} :
    (slice b room lo hi).returns ↔ hi ≤ b.length + room := by
  unfold slice
  split
  · next h => exact iff_of_true rfl h
  · next h => exact iff_of_false Bool.false_ne_true h

/-- The first integer has to end in the text, the second may reach into the room after it. -/
def InBounds (der : Bytes) (room : Nat) : Prop :=
  2 ≤ der.length → der.head? = some 0x30 → ∀ rLen ∈ derLength (der.drop 2),
    2 + rLen ≤ (der.drop 2).length
      ∧ ∀ sLen ∈ derLength ((der.drop 2).drop (2 + rLen)),
        2 + sLen ≤ ((der.drop 2).drop (2 + rLen)).length + room

theorem returns_parseDERSignature {der : Bytes} :
    (parseDERSignature der room).returns ↔ InBounds der room := by
  unfold parseDERSignature InBounds
  split
  · next hguard =>
    refine iff_of_true rfl fun hlength hhead => ?_
    rcases hguard with hshort | hother
    · omega
    · exact absurd hhead hother
  · next hguard =>
    obtain ⟨hlength, hhead⟩ := not_or.mp hguard
    rw [forall_prop_of_true (Nat.not_lt.mp hlength), forall_prop_of_true (not_not.mp hhead)]
    generalize der.drop 2 = inner
    dsimp only
    cases derLength inner with
    | none => exact iff_of_true rfl fun _ h => by cases h
    | some rLen =>
      simp only [returns_bind, returns_slice, Option.mem_some_iff, forall_eq']
      by_cases hr : 2 + rLen ≤ inner.length
      · have hslice : 2 + rLen ≤ inner.length + room := hr.trans (Nat.le_add_right _ _)
        simp only [hr, hslice, true_and, Nat.not_lt.mpr hr, if_false]
        generalize inner.drop (2 + rLen) = rest
        cases derLength rest with
        | none => exact iff_of_true (fun _ _ => rfl) fun _ h => by cases h
        | some sLen =>
          simp only [returns_bind, returns_slice, Option.mem_some_iff, forall_eq']
          exact ⟨fun h => (h _ (if_pos hslice)).1, fun h _ _ => ⟨h, fun _ _ => rfl⟩⟩
      · refine iff_of_false (fun h => ?_) fun h => hr h.1
        have hpanics := h.2 _ (if_pos h.1)
        rw [if_pos (Nat.not_le.mp hr)] at hpanics
        exact Bool.false_ne_true hpanics

structure Schemes.RsaReturns (C : Schemes) : Prop where
  pss : ∀ pub hash digest sig, (C.verifyPSS pub hash digest sig).returns = true
  pkcs1v15 : ∀ pub hash digest sig, (C.verifyPKCS1v15 pub hash digest sig).returns = true

def Curve.keySize (curve : Curve) : Nat := (curve.bitSize + 7) / 8

def PublicKey.Safe (alg sig : Bytes) (room : Nat) : PublicKey → Prop
  | .rsa _ => True
  | .ecdsa key =>
    ecdsaHash alg ≠ none → sig.length ≠ 2 * key.curve.keySize → InBounds sig room
  | .ed25519 key => key.length = Ed25519.publicKeySize

variable {C : Schemes} {alg msg sig : Bytes}

theorem returns_decodeB64 (text : Bytes) : (decodeB64 text).returns := by
  unfold decodeB64
  split
  · rfl
  · rfl

theorem returns_ed25519 {key : Bytes} :
    (do
      let valid ← C.ed25519.verifyWith key msg sig
      if valid = true then .ok ()
      else .err (.new "invalid ed25519 signature" []) : Res Unit).returns
      ↔ (PublicKey.ed25519 key).Safe alg sig room := by
  unfold Ed25519.verifyWith PublicKey.Safe
  split
  · next hlength =>
    refine iff_of_true ?_ hlength
    rw [ok_bind]
    split
    · rfl
    · rfl
  · next hlength => exact iff_of_false Bool.false_ne_true hlength

theorem returns_verifyRSA (h : C.RsaReturns) (pub : RsaPublicKey) :
    (verifyRSA C pub alg msg sig).returns := by
  unfold verifyRSA
  split
  · rfl
  · split
    · exact h.pss _ _ _ _
    · exact h.pkcs1v15 _ _ _ _

theorem returns_verifyECDSA {pub : EcdsaPublicKey} :
    (verifyECDSA C pub alg msg sig room).returns
      ↔ (PublicKey.ecdsa pub).Safe alg sig room := by
  unfold verifyECDSA PublicKey.Safe
  cases ecdsaHash alg with
  | none => exact iff_of_true rfl fun h => absurd rfl h
  | some hash =>
    have hlast : ∀ rs : Nat × Nat, (if C.ecdsaVerify pub (C.digest hash msg) rs.1 rs.2 then
        ok () else .err (.new "invalid ecdsa signature" [])).returns := by
      intro rs
      split
      · rfl
      · rfl
    simp only [returns_bind, ne_eq, reduceCtorEq, not_false_eq_true, forall_const]
    rw [and_iff_left fun rs _ => hlast rs]
    unfold ecdsaIntegers
    dsimp only
    split
    · next hraw => exact iff_of_true rfl fun h => absurd hraw h
    · next hraw =>
      rw [returns_wrapErr, returns_parseDERSignature]
      exact ⟨fun h _ => h, fun h => h hraw⟩

/-- The check returns exactly if key and signature have the lengths that the code relies on. -/
theorem verifyJWTSignature_returns_iff (C : Schemes) (hrsa : C.RsaReturns) (k : JwkKey)
    (token : Bytes) :
    ∀ pub, jwkToPublicKey k = .ok pub → ((verifyJWTSignature C token pub).returns = true
        ↔ ∀ header payload sigText sig, splitN 46 3 token = [header, payload, sigText] →
          decodeB64 sigText = .ok sig →
          pub.Safe (entry (unmarshaledPart (decodedPart header)) "alg") sig
            (spare sigText sig)) := by
  intro pub _
  unfold verifyJWTSignature
  split
  · next header payload sigText hsplit =>
    rw [returns_bind, and_iff_right (returns_decodeB64 sigText), hsplit]
    simp only [cons.injEq, and_true, and_imp]
    refine ⟨?_, fun h sig hsig => ?_⟩
    · rintro h _ _ _ sig rfl rfl rfl hsig
      have := h sig hsig
      cases pub with
      | rsa key => trivial
      | ecdsa key => exact returns_verifyECDSA.mp this
      | ed25519 key => exact returns_ed25519.mp this
    · have := h _ _ _ sig rfl rfl rfl hsig
      cases pub with
      | rsa key => exact returns_verifyRSA hrsa key
      | ecdsa key => exact returns_verifyECDSA.mpr this
      | ed25519 key => exact returns_ed25519.mpr this
  · next hparts =>
    refine iff_of_true rfl fun header payload sigText sig hsplit => ?_
    exact absurd hsplit (hparts header payload sigText)

namespace UpstreamSample

def shortKey : JwkKey := ⟨"OKP", [], [], [], "Ed25519", "AA", []⟩

theorem rsaReturns : schemes.RsaReturns := ⟨fun _ _ _ _ => rfl, fun _ _ _ _ => rfl⟩

end UpstreamSample

open UpstreamSample

theorem shortKey_panics : jwkToPublicKey shortKey = .ok (.ed25519 [0])
    ∧ verifyJWTSignature schemes ".." (.ed25519 [0])
      = .panics "ed25519: bad public key length" := by decide +kernel

theorem shortKey_unsafe : ∃ pub, jwkToPublicKey shortKey = .ok pub
    ∧ ((verifyJWTSignature schemes ".." pub).returns = true
      ↔ ∀ header payload sigText sig, splitN 46 3 ".." = [header, payload, sigText] →
        decodeB64 sigText = .ok sig →
        pub.Safe (entry (unmarshaledPart (decodedPart header)) "alg") sig (spare sigText sig)) :=
  ⟨.ed25519 [0], by decide +kernel,
    verifyJWTSignature_returns_iff schemes rsaReturns shortKey ".." _ (by decide +kernel)⟩

/-! ## The two encodings -/

def Curve.hash : Curve → Hash
  | .p256 => .sha256
  | .p384 => .sha384
  | .p521 => .sha512

def fixedWidth (curve : Curve) (r s : Nat) : Bytes :=
  beBytes curve.keySize r ++ beBytes curve.keySize s

def derLen (n : Nat) : Bytes :=
  if n < 128 then [ofNat n]
  else
    let w := (n.size + 7) / 8
    ofNat (128 + w) :: beBytes w n

def derBytes (n : Nat) : Bytes := beBytes (n.size / 8 + 1) n

def derInteger (n : Nat) : Bytes := 0x02 :: derLen (derBytes n).length ++ derBytes n

def derSignature (r s : Nat) : Bytes :=
  0x30 :: derLen (derInteger r ++ derInteger s).length ++ (derInteger r ++ derInteger s)

def Schemes.InRange (C : Schemes) : Prop := ∀ pub digest r s,
  C.ecdsaVerify pub digest r s = true → r < 2 ^ pub.curve.bitSize ∧ s < 2 ^ pub.curve.bitSize

theorem beNat_derBytes (n : Nat) : beNat (derBytes n) = n := by
  have hlt : n < 256 ^ (n.size / 8 + 1) := by
    refine lt_of_lt_of_le n.lt_size_self ?_
    rw [show 256 = 2 ^ 8 from rfl, ← pow_mul]
    exact Nat.pow_le_pow_right (by decide) (by omega)
  rw [derBytes, beNat_beBytes, Nat.mod_eq_of_lt hlt]

theorem length_derBytes (n : Nat) : (derBytes n).length = n.size / 8 + 1 := length_beBytes _ _

theorem size_le {curve : Curve} {n : Nat} (h : n < 2 ^ curve.bitSize) : n.size ≤ 521 := by
  have hle : curve.bitSize ≤ 521 := by cases curve <;> decide
  exact (Nat.size_le.mpr h).trans hle

theorem parseDERSignature_pair {rLen sLen : UInt8} {r s : Bytes} (hr : rLen.toNat = r.length)
    (hs : sLen.toNat = s.length) (room : Nat) :
    parseDERSignature (0x30 :: len :: 0x02 :: rLen :: (r ++ 0x02 :: sLen :: s)) room
      = .ok (beNat r, beNat s) := by
  have hslice : ∀ (tag b : UInt8) (l m : Bytes),
      slice (tag :: b :: (l ++ m)) room 2 (2 + l.length) = .ok l := by
    intro tag b l m
    have hle : 2 + l.length ≤ (tag :: b :: (l ++ m)).length + room := by
      simp only [length_cons, length_append]
      omega
    rw [slice, if_pos hle, cons_append, cons_append, append_assoc, Nat.add_comm, take_succ_cons,
      take_succ_cons, take_left]
    rfl
  have hsecond := hslice 0x02 sLen s []
  rw [append_nil] at hsecond
  have hdrop : (0x02 :: rLen :: (r ++ 0x02 :: sLen :: s)).drop (2 + r.length)
      = 0x02 :: sLen :: s := by
    rw [Nat.add_comm, drop_succ_cons, drop_succ_cons, drop_left]
  simp [parseDERSignature, derLength, hr, hs, hslice, hsecond, hdrop]
  omega

theorem parseDERSignature_of_tag {tag : UInt8} {rest : Bytes} (h : tag ≠ 0x02) :
    parseDERSignature (0x30 :: len :: tag :: rest) room = .err (.new "expected integer" []) := by
  have hnone : derLength (tag :: rest) = none := by
    cases rest with
    | nil => rfl
    | cons b rest => exact if_neg h
  simp [parseDERSignature, hnone]

theorem derLen_short (h : n < 128) : derLen n = [ofNat n] := if_pos h

theorem derLen_long (h : 128 ≤ n) (h' : n < 256) : derLen n = [0x81, ofNat n] := by
  have hsize : n.size = 8 := le_antisymm (Nat.size_le.mpr h') (Nat.lt_size.mpr h)
  rw [derLen, if_neg (by omega), hsize]
  simp [beBytes]

theorem derInteger_eq (h : n.size ≤ 521) :
    derInteger n = 0x02 :: ofNat (n.size / 8 + 1) :: derBytes n := by
  rw [derInteger, length_derBytes, derLen_short (by omega)]
  rfl

theorem length_content {r s : Nat} (hr : r.size ≤ 521) (hs : s.size ≤ 521) :
    (derInteger r ++ derInteger s).length = r.size / 8 + s.size / 8 + 6 := by
  rw [derInteger_eq hr, derInteger_eq hs]
  simp only [length_append, length_cons, length_derBytes]
  omega

section Encodings

variable {pub : EcdsaPublicKey} {r s room : Nat}

theorem verifyECDSA_es {hash : Hash} :
    verifyECDSA C pub hash.es msg sig room = .ok ()
      ↔ ∃ rs, ecdsaIntegers pub.curve sig room = .ok rs
        ∧ C.ecdsaVerify pub (C.digest hash msg) rs.1 rs.2 = true := by
  rw [verifyECDSA, ecdsaHash_eq_some.mpr rfl]
  refine bind_eq_ok.trans (exists_congr fun rs => and_congr_right fun _ => ?_)
  split
  · next h => exact iff_of_true rfl h
  · next h => exact iff_of_false (err_ne_ok _ _) h

theorem ecdsaIntegers_raw (h : sig.length = 2 * curve.keySize) :
    ecdsaIntegers curve sig room
      = .ok (beNat (sig.take curve.keySize), beNat (sig.drop curve.keySize)) := if_pos h

theorem ecdsaIntegers_der (h : sig.length ≠ 2 * curve.keySize) :
    ecdsaIntegers curve sig room
      = (parseDERSignature sig room).wrapErr "parse ecdsa sig: %w" [] := if_neg h

theorem verifyECDSA_fixedWidth {hash : Hash} (hr : r < 2 ^ pub.curve.bitSize)
    (hs : s < 2 ^ pub.curve.bitSize) (hvalid : C.ecdsaVerify pub (C.digest hash msg) r s) :
    verifyECDSA C pub hash.es msg (fixedWidth pub.curve r s) room = .ok () := by
  have hlength : (beBytes pub.curve.keySize r).length = pub.curve.keySize := length_beBytes _ _
  have hsize : ∀ n < 2 ^ pub.curve.bitSize, n % 256 ^ pub.curve.keySize = n := by
    intro n hn
    refine Nat.mod_eq_of_lt (hn.trans_le ?_)
    rw [show 256 = 2 ^ 8 from rfl, ← pow_mul]
    refine Nat.pow_le_pow_right (by decide) ?_
    cases pub.curve <;> decide
  have hraw : (fixedWidth pub.curve r s).length = 2 * pub.curve.keySize := by
    rw [fixedWidth, length_append, length_beBytes, length_beBytes, Nat.two_mul]
  refine verifyECDSA_es.mpr ⟨_, ecdsaIntegers_raw hraw, ?_⟩
  rw [fixedWidth, take_left' hlength, drop_left' hlength, beNat_beBytes, beNat_beBytes,
    hsize r hr, hsize s hs]
  exact hvalid

theorem verifyECDSA_short {hash : Hash} (hr : r.size ≤ 521) (hs : s.size ≤ 521)
    (hshort : r.size / 8 + s.size / 8 < 122)
    (hvalid : C.ecdsaVerify pub (C.digest hash msg) r s) :
    verifyECDSA C pub hash.es msg (derSignature r s) room = .ok ()
      ↔ (r.size / 8 + s.size / 8 + 8 = 2 * pub.curve.keySize →
        C.ecdsaVerify pub (C.digest hash msg) (beNat ((derSignature r s).take pub.curve.keySize))
          (beNat ((derSignature r s).drop pub.curve.keySize)) = true) := by
  have hder : derSignature r s = 0x30 :: ofNat (r.size / 8 + s.size / 8 + 6)
      :: (derInteger r ++ derInteger s) := by
    rw [derSignature, length_content hr hs, derLen_short (by omega)]
    rfl
  have hlength : (derSignature r s).length = r.size / 8 + s.size / 8 + 8 := by
    rw [hder, length_cons, length_cons, length_content hr hs]
  rw [verifyECDSA_es]
  by_cases hraw : r.size / 8 + s.size / 8 + 8 = 2 * pub.curve.keySize
  · rw [ecdsaIntegers_raw (hlength.trans hraw)]
    simp only [ok.injEq, exists_eq_left', hraw, forall_const]
  · rw [ecdsaIntegers_der (hlength ▸ hraw)]
    refine iff_of_true ⟨(r, s), ?_, hvalid⟩ fun h => absurd h hraw
    have hlen : ∀ n : Nat, n.size ≤ 521 → (ofNat (n.size / 8 + 1)).toNat = (derBytes n).length := by
      intro n hn
      rw [length_derBytes, toNat_ofNat', Nat.mod_eq_of_lt (by omega)]
    rw [hder, derInteger_eq hr, derInteger_eq hs, cons_append, cons_append,
      parseDERSignature_pair (hlen r hr) (hlen s hs), beNat_derBytes, beNat_derBytes]
    rfl

/-- The second byte of a long length stands where the first integer should begin. -/
theorem verifyECDSA_long {hash : Hash} (hrange : C.InRange) (hr : r < 2 ^ pub.curve.bitSize)
    (hs : s < 2 ^ pub.curve.bitSize) (hlong : 122 ≤ r.size / 8 + s.size / 8) :
    verifyECDSA C pub hash.es msg (derSignature r s) room ≠ .ok () := by
  have hcurve : pub.curve = .p521 := by
    have hle := Nat.size_le.mpr hr
    have hle' := Nat.size_le.mpr hs
    cases hcurve : pub.curve with
    | p521 => rfl
    | p256 | p384 =>
      rw [hcurve, Curve.bitSize] at hle hle'
      omega
  have hr' := size_le hr
  have hs' := size_le hs
  have hder : derSignature r s = 0x30 :: 0x81 :: ofNat (r.size / 8 + s.size / 8 + 6)
      :: (derInteger r ++ derInteger s) := by
    rw [derSignature, length_content hr' hs', derLen_long (by omega) (by omega)]
    rfl
  rw [ne_eq, verifyECDSA_es]
  rintro ⟨rs, hints, hverify⟩
  by_cases hraw : (derSignature r s).length = 2 * pub.curve.keySize
  · -- an integer that starts with the tag of the sequence is too large for the curve
    rw [ecdsaIntegers_raw hraw] at hints
    have hfirst := (hrange _ _ _ _ hverify).1
    rw [hcurve, hder, length_cons] at hraw
    rw [← ok.inj hints, hder, hcurve] at hfirst
    have hrest := length_take_of_le (show 65 ≤ length _ by
      rw [Nat.succ.inj hraw]
      decide)
    have hlarge : 2 ^ Curve.bitSize .p521 ≤ 0x30 * 256 ^ 65 := by decide +kernel
    refine absurd hfirst (Nat.not_lt.mpr (hlarge.trans ?_))
    rw [← hrest]
    exact Nat.le_add_right _ _
  · have htag : ofNat (r.size / 8 + s.size / 8 + 6) ≠ 0x02 := by
      intro h
      have := congrArg toNat h
      rw [toNat_ofNat', Nat.mod_eq_of_lt (by omega)] at this
      exact absurd this (by simp)
    rw [ecdsaIntegers_der hraw, hder, parseDERSignature_of_tag htag] at hints
    cases hints

/-- Both encodings of a signature are accepted exactly if the DER form is short and not as long as
the other. -/
theorem verifyECDSA_both_iff (C : Schemes) (hrange : C.InRange) (pub : EcdsaPublicKey)
    (msg : Bytes) (r s room : Nat)
    (hvalid : C.ecdsaVerify pub (C.digest pub.curve.hash msg) r s = true) :
    (verifyECDSA C pub pub.curve.hash.es msg (fixedWidth pub.curve r s) room = .ok ()
        ∧ verifyECDSA C pub pub.curve.hash.es msg (derSignature r s) room = .ok ())
      ↔ r.size / 8 + s.size / 8 < 122
        ∧ (r.size / 8 + s.size / 8 + 8 = 2 * pub.curve.keySize →
          C.ecdsaVerify pub (C.digest pub.curve.hash msg)
            (beNat ((derSignature r s).take pub.curve.keySize))
            (beNat ((derSignature r s).drop pub.curve.keySize)) = true) := by
  obtain ⟨hr, hs⟩ := hrange _ _ _ _ hvalid
  rw [and_iff_right (verifyECDSA_fixedWidth hr hs hvalid)]
  by_cases hshort : r.size / 8 + s.size / 8 < 122
  · rw [and_iff_right hshort, verifyECDSA_short (size_le hr) (size_le hs) hshort hvalid]
  · exact iff_of_false (verifyECDSA_long hrange hr hs (Nat.not_lt.mp hshort)) fun h => hshort h.1

end Encodings

namespace UpstreamSample

def accepting (r s : Nat) : Schemes :=
  { schemes with
    ecdsaVerify pub _ r' s' :=
      decide (r < 2 ^ pub.curve.bitSize ∧ s < 2 ^ pub.curve.bitSize ∧ r' = r ∧ s' = s) }

theorem inRange_accepting (r s : Nat) : (accepting r s).InRange := by
  intro pub digest r' s' h
  obtain ⟨hr, hs, rfl, rfl⟩ := of_decide_eq_true h
  exact ⟨hr, hs⟩

def key : EcdsaPublicKey := ⟨.p256, 1, 1⟩

end UpstreamSample

/-- The DER text of a valid signature has 64 bytes, and is taken for the two numbers. -/
theorem der_as_fixedWidth :
    let r := 2 ^ 224 + 3
    (derSignature r r).length = 64 ∧ (accepting r r).ecdsaVerify key [] r r = true
      ∧ verifyECDSA (accepting r r) key "ES256" [] (derSignature r r) 0
        = .err (.new "invalid ecdsa signature" []) := by
  decide +kernel

theorem verifyECDSA_both_small :
    verifyECDSA (accepting 1 1) key (Hash.es .sha256) [] (derSignature 1 1) 0 = .ok () :=
  ((verifyECDSA_both_iff (accepting 1 1) (inRange_accepting 1 1) key [] 1 1 0
    (by decide +kernel)).mpr ⟨by decide +kernel, by decide +kernel⟩).2

end TptIdentity.OidcRp
