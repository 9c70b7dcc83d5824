import TptIdentity.GoBase64
import TptIdentity.GoCrypto
import TptIdentity.GoJsonStruct

/-!
# Package trust: permits

`parsePermitToken` splits a permit at the first two dots; the signature is checked over
everything before the last. Permits are read back as issued, and what is accepted was signed
(`verifyPermit_issued_iff_and_signed`).
-/

namespace TptIdentity.Trust

open Go List Res

structure Permit where
  issuer : Bytes
  subject : Bytes
  audience : Bytes
  action : Bytes
  issuedAt : Int64
  expiresAt : Int64
  jti : Bytes
deriving DecidableEq, Repr

namespace Permit

def zero : Permit := ⟨[], [], [], [], 0, 0, []⟩

def fields (p : Permit) : Fields :=
  [("iss", some (.str p.issuer)), ("sub", some (.str p.subject)),
    ("aud", some (.str p.audience)), ("action", some (.str p.action)),
    ("iat", some (.int p.issuedAt.toInt)), ("exp", some (.int p.expiresAt.toInt)),
    ("jti", omitted p.jti)]

def assign (name : Bytes) (j : Json) (p : Permit) : Option Permit :=
  if name = "iss" then (decodeStr p.issuer j).map fun s => { p with issuer := s }
  else if name = "sub" then (decodeStr p.subject j).map fun s => { p with subject := s }
  else if name = "aud" then (decodeStr p.audience j).map fun s => { p with audience := s }
  else if name = "action" then (decodeStr p.action j).map fun s => { p with action := s }
  else if name = "iat" then (decodeInt64 p.issuedAt j).map fun t => { p with issuedAt := t }
  else if name = "exp" then (decodeInt64 p.expiresAt j).map fun t => { p with expiresAt := t }
  else if name = "jti" then (decodeStr p.jti j).map fun s => { p with jti := s }
  else some p

def unmarshal (raw : Bytes) : Res Permit := unmarshalInto (decodeStruct assign) zero raw

end Permit

def permitHeader : Bytes := encodeB64 "\x7b\"alg\":\"EdDSA\",\"typ\":\"tpt-permit\"\x7d"

def signPermit (E : Ed25519) (p : Permit) (key : Bytes) : Res Bytes := do
  let payload ← (marshal (.obj p.fields.members)).wrapErr "permit: marshal: %w" []
  let sigInput := permitHeader ++ 46 :: encodeB64 payload
  let sig ← E.signWith key sigInput
  return sigInput ++ 46 :: encodeB64 sig

def permitFor (now : Int) (issuerDID subjectDID audienceDID action : Bytes) (ttl : Int)
    (jti : Bytes) : Permit :=
  { issuer := issuerDID
    subject := subjectDID
    audience := audienceDID
    action
    issuedAt := Int64.ofInt (unix now)
    expiresAt := Int64.ofInt (unix (now + ttl))
    jti }

def issuePermit (E : Ed25519) (now : Int) (issuerDID issuerKey subjectDID audienceDID : Bytes)
    (action : Bytes) (ttl : Int) (jti : Bytes) : Res Bytes :=
  signPermit E (permitFor now issuerDID subjectDID audienceDID action ttl jti) issuerKey

def parsePermitToken (token : Bytes) : Res (Permit × Bytes) :=
  match splitN 46 3 token with
  | [_, payload, sigText] => do
    let raw ← (decodeB64 payload).wrapErr "permit: decode payload: %w" []
    let p ← (Permit.unmarshal raw).wrapErr "permit: unmarshal payload: %w" []
    let sig ← (decodeB64 sigText).wrapErr "permit: decode signature: %w" []
    return (p, sig)
  | _ => .err (.new "permit: malformed token (expected 3 parts)" [])

def verifyPermit (E : Ed25519) (now : Int)
    (token issuerPub expectedAudience expectedAction : Bytes) : Res Permit := do
  let (p, sig) ← parsePermitToken token
  match lastIndex token [46] with
  | none => .err (.new "permit: malformed token" [])
  | some dot =>
    let valid ← E.verifyWith issuerPub (token.take dot) sig
    if valid = false then .err (.new "permit: invalid signature" [])
    else if unix now > p.expiresAt.toInt then .err (.new "permit: expired" [])
    else if expectedAudience ≠ [] ∧ p.audience ≠ expectedAudience then
      .err (.new "permit: audience mismatch (got %q, want %q)" [p.audience, expectedAudience])
    else if expectedAction ≠ [] ∧ p.action ≠ expectedAction then
      .err (.new "permit: action mismatch (got %q, want %q)" [p.action, expectedAction])
    else return p

/-! ## Reading permits back -/

namespace Permit

variable {p : Permit}

def Readable (p : Permit) : Prop :=
  validUtf8 p.issuer ∧ validUtf8 p.subject ∧ validUtf8 p.audience ∧ validUtf8 p.action
    ∧ validUtf8 p.jti

theorem writable (p : Permit) : (Value.obj p.fields.members).Writable 1 := by
  refine writable_fields ?_
  simp only [fields, forall_mem_cons, Option.mem_some_iff, forall_eq']
  exact ⟨writable_str 0 _, writable_str 0 _, writable_str 0 _, writable_str 0 _, writable_int 0 _,
    writable_int 0 _, writable_omitted 0 _, forall_mem_nil _⟩

theorem unmarshal_text (h : p.Readable) : unmarshal (Value.obj p.fields.members).text = .ok p := by
  obtain ⟨hissuer, hsubject, haudience, haction, hjti⟩ := h
  have hcoerced : p = ⟨coerce p.issuer, coerce p.subject, coerce p.audience, coerce p.action,
      p.issuedAt, p.expiresAt, coerce p.jti⟩ := by
    rw [coerce_eq_self hissuer, coerce_eq_self hsubject, coerce_eq_self haudience,
      coerce_eq_self haction, coerce_eq_self hjti]
  refine unmarshalInto_fields p.writable (by decide) ?_
  nth_rewrite 2 [hcoerced]
  refine reads_field (decodeStr_wire_str [] _) ?_
  refine reads_field (decodeStr_wire_str [] _) ?_
  refine reads_field (decodeStr_wire_str [] _) ?_
  refine reads_field (decodeStr_wire_str [] _) ?_
  refine reads_field (decodeInt64_wire 0 _) ?_
  refine reads_field (decodeInt64_wire 0 _) ?_
  exact reads_field (readsAs_omitted _) (reads_nil _)

/-- Not expired, and for the audience and the action that are expected, if any. -/
def Serves (p : Permit) (now : Int) (expectedAudience expectedAction : Bytes) : Prop :=
  unix now ≤ p.expiresAt.toInt ∧ (expectedAudience = [] ∨ p.audience = expectedAudience)
    ∧ (expectedAction = [] ∨ p.action = expectedAction)

end Permit

/-! ## Where a token is cut -/

theorem not_mem_of_decodeB64 {s raw : Bytes} (h : decodeB64 s = .ok raw) : (46 : UInt8) ∉ s := by
  have hnone : ∀ {l : Bytes}, (46 : UInt8) ∈ l → l.mapM b64Val = none := by
    intro l hl
    induction l with
    | nil => cases hl
    | cons c l ih =>
      rcases List.mem_cons.mp hl with rfl | hl
      · rfl
      · rw [mapM_cons, ih hl]
        cases b64Val c <;> rfl
  intro hdot
  rw [decodeB64, hnone (List.mem_filter.mpr ⟨hdot, rfl⟩)] at h
  cases h

variable {E : Ed25519} {now : Int} {token pub audience action : Bytes} {p : Permit}

theorem parts_of_parsePermitToken {sig : Bytes} (h : parsePermitToken token = .ok (p, sig)) :
    ∃ header payload sigText raw, splitN 46 3 token = [header, payload, sigText]
      ∧ decodeB64 payload = .ok raw ∧ Permit.unmarshal raw = .ok p
      ∧ decodeB64 sigText = .ok sig := by
  unfold parsePermitToken at h
  split at h
  · next header payload sigText hsplit =>
    simp only [bind_eq_ok, wrapErr_eq_ok, pure_eq_ok, Res.ok.injEq, Prod.mk.injEq] at h
    obtain ⟨raw, hraw, p', hp, sig', hsig, rfl, rfl⟩ := h
    exact ⟨header, payload, sigText, raw, hsplit, hraw, hp, hsig⟩
  · cases h

theorem signed_of_splitN {header payload sigText sig : Bytes}
    (hsplit : splitN 46 3 token = [header, payload, sigText]) (hsig : decodeB64 sigText = .ok sig) :
    ∃ dot, lastIndex token [46] = some dot ∧ token.take dot = header ++ 46 :: payload := by
  obtain ⟨rfl, -, -⟩ := splitN_three.mp hsplit
  have hassoc : header ++ 46 :: (payload ++ 46 :: sigText)
      = (header ++ 46 :: payload) ++ ([46] ++ sigText) := by simp
  rw [hassoc]
  refine ⟨_, lastIndex_append _ fun j hpre => not_mem_of_decodeB64 hsig ?_, take_left ..⟩
  exact mem_of_mem_drop (hpre.subset (mem_singleton_self _))

theorem verifyPermit_eq_ok :
    verifyPermit E now token pub audience action = .ok p ↔
      ∃ header payload sigText raw sig, splitN 46 3 token = [header, payload, sigText]
        ∧ decodeB64 payload = .ok raw ∧ Permit.unmarshal raw = .ok p ∧ decodeB64 sigText = .ok sig
        ∧ pub.length = Ed25519.publicKeySize ∧ E.verify pub (header ++ 46 :: payload) sig
        ∧ p.Serves now audience action := by
  have hserves : ∀ q : Permit, q.Serves now audience action ↔ ¬unix now > q.expiresAt.toInt
      ∧ ¬(audience ≠ [] ∧ q.audience ≠ audience) ∧ ¬(action ≠ [] ∧ q.action ≠ action) := by
    intro q
    simp only [Permit.Serves, not_and_or, not_not, not_lt]
  simp only [verifyPermit, bind_eq_ok, Prod.exists]
  constructor
  · rintro ⟨q, sig, hparse, h⟩
    obtain ⟨header, payload, sigText, raw, hsplit, hraw, hq, hsig⟩ :=
      parts_of_parsePermitToken hparse
    obtain ⟨dot, hdot, htake⟩ := signed_of_splitN hsplit hsig
    simp only [hdot, htake, bind_eq_ok, Ed25519.verifyWith_eq_ok, ite_err_eq_ok, pure_eq_ok,
      Res.ok.injEq] at h
    obtain ⟨_, ⟨hpub, rfl⟩, hvalid, hexp, haudience, haction, rfl⟩ := h
    exact ⟨header, payload, sigText, raw, sig, hsplit, hraw, hq, hsig, hpub, by simpa using hvalid,
      (hserves q).mpr ⟨hexp, haudience, haction⟩⟩
  · rintro ⟨header, payload, sigText, raw, sig, hsplit, hraw, hp, hsig, hpub, hvalid, h⟩
    obtain ⟨dot, hdot, htake⟩ := signed_of_splitN hsplit hsig
    obtain ⟨hexp, haudience, haction⟩ := (hserves p).mp h
    refine ⟨p, sig, by simp [parsePermitToken, hsplit, hraw, hp, hsig], ?_⟩
    simp only [hdot, htake, bind_eq_ok, Ed25519.verifyWith_eq_ok, ite_err_eq_ok, pure_eq_ok]
    exact ⟨_, ⟨hpub, rfl⟩, by simp [hvalid], hexp, haudience, haction, trivial⟩

theorem signPermit_eq {key : Bytes} (hkey : key.length = Ed25519.privateKeySize) :
    signPermit E p key = .ok ((permitHeader ++ 46 :: encodeB64 (Value.obj p.fields.members).text)
      ++ 46 :: encodeB64 (E.sign key
        (permitHeader ++ 46 :: encodeB64 (Value.obj p.fields.members).text))) := by
  simp only [signPermit, marshal_eq_ok p.writable.supported, wrapErr_ok, ok_bind,
    Ed25519.signWith_eq_ok.mpr ⟨hkey, rfl⟩, pure_eq_ok]

/-- An issued permit is accepted exactly in its time for its audience and action, and an accepted
one is signed. -/
theorem verifyPermit_issued_iff_and_signed (E : Ed25519) (pub : Bytes) :
    (∀ (key issuer subject audience action jti expectedAudience expectedAction : Bytes)
        (issued now ttl : Int), E.KeyPair key pub → key.length = Ed25519.privateKeySize →
      pub.length = Ed25519.publicKeySize →
      let p := permitFor issued issuer subject audience action ttl jti
      p.Readable →
      ∃ token, issuePermit E issued issuer key subject audience action ttl jti = .ok token
        ∧ (verifyPermit E now token pub expectedAudience expectedAction = .ok p
          ↔ p.Serves now expectedAudience expectedAction))
    ∧ ∀ (token expectedAudience expectedAction : Bytes) (now : Int) (p : Permit),
      verifyPermit E now token pub expectedAudience expectedAction = .ok p →
      ∃ header payload sigText raw sig, token = header ++ 46 :: (payload ++ 46 :: sigText)
        ∧ decodeB64 sigText = .ok sig ∧ E.verify pub (header ++ 46 :: payload) sig
        ∧ decodeB64 payload = .ok raw ∧ Permit.unmarshal raw = .ok p := by
  refine ⟨?_, ?_⟩
  · intro key issuer subject audience action jti _ _ issued now ttl hpair hkey hpub p hread
    refine ⟨_, signPermit_eq hkey, ?_⟩
    rw [verifyPermit_eq_ok]
    constructor
    · rintro ⟨_, _, _, _, _, -, -, -, -, -, -, hserves⟩
      exact hserves
    · intro hserves
      refine ⟨permitHeader, _, _, _, _, splitN_three.mpr ⟨?_, not_mem_encodeB64 rfl _,
        not_mem_encodeB64 rfl _⟩, decodeB64_encodeB64 _, Permit.unmarshal_text hread,
        decodeB64_encodeB64 _, hpub, hpair _, hserves⟩
      rw [append_assoc, cons_append]
  · intro token expectedAudience expectedAction now p h
    obtain ⟨header, payload, sigText, raw, sig, hsplit, hraw, hp, hsig, -, hvalid, -⟩ :=
      verifyPermit_eq_ok.mp h
    exact ⟨header, payload, sigText, raw, sig, (splitN_three.mp hsplit).1, hsig, hvalid, hraw, hp⟩

theorem verifyPermit_issued_standIn :
    ∃ token, issuePermit Crypto.standIn.ed25519 0 "i" (replicate 64 1) "s" "a"
        "read:email" 60000000000 [] = .ok token
      ∧ verifyPermit Crypto.standIn.ed25519 30000000000 token (replicate 32 1) "a" []
        = .ok (permitFor 0 "i" "s" "a" "read:email" 60000000000 []) := by
  obtain ⟨token, hissue, hverify⟩ := (verifyPermit_issued_iff_and_signed
    Crypto.standIn.ed25519 (replicate 32 1)).1 (replicate 64 1) "i" "s" "a"
    "read:email" [] "a" [] 0 30000000000 60000000000 (fun _ => rfl) rfl rfl
    ⟨rfl, rfl, rfl, rfl, rfl⟩
  exact ⟨token, hissue, hverify.mpr ⟨by decide +kernel, .inr rfl, .inl rfl⟩⟩

end TptIdentity.Trust
