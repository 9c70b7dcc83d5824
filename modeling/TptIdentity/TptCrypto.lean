import TptIdentity.GoCrypto
import TptIdentity.GoJsonFields

/-!
# Package crypto: signed JSON

`SignJSON` signs the SHA-512 hash of the text that `json.Marshal` writes. `JCS` is a canonical
text: the value is written, read into an `any` and written again (`jcs_normal_form`).
-/

namespace TptIdentity.Tptcrypto

open Go Res

variable {pub sig b : Bytes} {v : Value}

section Signatures

variable (sha512 : Bytes → Bytes) (E : Ed25519)

def sign (key payload : Bytes) : Res Bytes := E.signWith key (sha512 payload)

def verify (pub payload sig : Bytes) : Res Unit := do
  if ← E.verifyWith pub (sha512 payload) sig then .ok ()
  else .err (.new "invalid signature" [])

def signJSON (key : Bytes) (v : Value) : Res Bytes := do
  let b ← (marshal v).wrapErr "marshal: %w" []
  sign sha512 E key b

def verifyJSON (pub : Bytes) (v : Value) (sig : Bytes) : Res Unit := do
  let b ← (marshal v).wrapErr "marshal: %w" []
  verify sha512 E pub b sig

variable {sha512 E}

theorem verifyJSON_of_signJSON {key : Bytes} (hpair : E.KeyPair key pub)
    (hpub : pub.length = Ed25519.publicKeySize) (h : signJSON sha512 E key v = .ok sig) :
    verifyJSON sha512 E pub v sig = .ok () := by
  obtain ⟨b, hb, h⟩ := Res.bind_eq_ok.mp h
  obtain ⟨-, rfl⟩ := Ed25519.signWith_eq_ok.mp h
  have hvalid : E.verifyWith pub (sha512 b) (E.sign key (sha512 b)) = .ok true :=
    Ed25519.verifyWith_eq_ok.mpr ⟨hpub, (hpair _).symm⟩
  exact Res.bind_eq_ok.mpr ⟨b, hb, Res.bind_eq_ok.mpr ⟨true, hvalid, rfl⟩⟩

theorem verifyJSON_eq_ok :
    verifyJSON sha512 E pub v sig = .ok () ↔ v.supported
      ∧ pub.length = Ed25519.publicKeySize ∧ E.verify pub (sha512 v.text) sig := by
  unfold verifyJSON marshal
  split
  · next hsup =>
    rw [wrapErr_ok, ok_bind, verify, bind_eq_ok]
    constructor
    · rintro ⟨valid, hvalid, h⟩
      obtain ⟨hpub, rfl⟩ := Ed25519.verifyWith_eq_ok.mp hvalid
      split at h
      · next hverify => exact ⟨hsup, hpub, hverify⟩
      · cases h
    · rintro ⟨-, hpub, hverify⟩
      exact ⟨_, Ed25519.verifyWith_eq_ok.mpr ⟨hpub, rfl⟩, if_pos hverify⟩
  · next hsup => simp [hsup]

end Signatures

/-! ## Canonical JSON -/

def jcs (v : Value) : Res Bytes := do
  let raw ← (marshal v).wrapErr "jcs marshal: %w" []
  let canonical ← (unmarshal raw).wrapErr "jcs unmarshal: %w" []
  (marshal canonical).wrapErr "jcs remarshal: %w" []

theorem jcs_ok (h : jcs v = .ok b) :
    v.supported ∧ ∃ w, v.norm = some w ∧ Decoded maxNestingDepth w ∧ b = w.text := by
  obtain ⟨raw, hraw, hrest⟩ := Res.bind_eq_ok.mp h
  obtain ⟨w, hw, hb⟩ := Res.bind_eq_ok.mp hrest
  rw [wrapErr_eq_ok] at hraw hw hb
  have hsup : v.supported := by
    unfold marshal at hraw
    split at hraw
    · next hsup => exact hsup
    · cases hraw
  obtain rfl := Res.ok.inj ((marshal_eq_ok hsup).symm.trans hraw)
  have hany := unmarshal_eq_ok.mp hw
  have hdec := decoded_of_decodeAny hany
  obtain ⟨j, hj, hnorm⟩ := Option.bind_eq_some_iff.mp hany
  rw [eq_wire_of_parse_text hsup hj] at hnorm
  rw [marshal_eq_ok hdec.supported] at hb
  exact ⟨hsup, w, hnorm, hdec, (Res.ok.inj hb).symm⟩

theorem jcs_eq {w : Value} (hsup : v.supported) (hdepth : v.depth ≤ maxNestingDepth)
    (hnorm : v.norm = some w) : jcs v = .ok w.text := by
  have hany : decodeAny v.text = some w := by
    rw [decodeAny, parse_text hsup hdepth, Option.bind_some]
    exact hnorm
  simp only [jcs, marshal_eq_ok hsup, unmarshal_eq_ok.mpr hany,
    marshal_eq_ok (decoded_of_decodeAny hany).supported, wrapErr_ok, ok_bind]

theorem jcs_congr {v' : Value} (hsup : v'.supported) (hdepth : v'.depth ≤ maxNestingDepth)
    (hnorm : v'.norm = v.norm) (h : jcs v = .ok b) : jcs v' = .ok b := by
  obtain ⟨-, w, hw, -, rfl⟩ := jcs_ok h
  exact jcs_eq hsup hdepth (hnorm.trans hw)

/-- Canonical texts are canonical already, and two values have one exactly if they read alike. -/
theorem jcs_normal_form (v v' : Value) :
    (do let b ← jcs v; let w ← unmarshal b; jcs w) = jcs v
      ∧ ((∃ b, jcs v = .ok b ∧ jcs v' = .ok b)
        ↔ (jcs v).isOk ∧ (jcs v').isOk ∧ v.norm = v'.norm) := by
  constructor
  · cases h : jcs v with
    | ok b =>
      obtain ⟨-, w, -, hdec, rfl⟩ := jcs_ok h
      have hread := unmarshal_eq_ok.mpr (decodeAny_text hdec le_rfl)
      have hagain := jcs_eq hdec.supported hdec.depth_le hdec.norm
      simp only [ok_bind, hread, hagain]
    | err e => rfl
    | panics r => rfl
  · constructor
    · rintro ⟨b, h, h'⟩
      obtain ⟨-, w, hw, hdec, rfl⟩ := jcs_ok h
      obtain ⟨-, w', hw', hdec', htext⟩ := jcs_ok h'
      rw [hdec.text_inj hdec' htext] at hw
      exact ⟨by rw [h]; rfl, by rw [h']; rfl, hw.trans hw'.symm⟩
    · rintro ⟨h, h', hnorm⟩
      obtain ⟨b, hb⟩ := isOk_iff.mp h
      obtain ⟨b', hb'⟩ := isOk_iff.mp h'
      obtain ⟨-, w, hw, -, rfl⟩ := jcs_ok hb
      obtain ⟨-, w', hw', -, rfl⟩ := jcs_ok hb'
      obtain rfl := Option.some.inj (hw.symm.trans (hnorm.trans hw'))
      exact ⟨_, hb, hb'⟩

end TptIdentity.Tptcrypto
