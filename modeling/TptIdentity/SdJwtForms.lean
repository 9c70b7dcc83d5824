import TptIdentity.SdJwtDisclosure

/-!
# The text of a presentation

`ParseSDJWT` reads back exactly the texts in the format of `sdjwt.go` whose disclosures do not
have two dots (`parsesItsFormat_iff`). The verifier hashes a disclosure as written anew, not as
sent (`hashedAsSent_iff`).
-/

namespace TptIdentity.Vc

open Go List Res

/-! ## The format and its parser -/

structure HasForm (s jwt : Bytes) (discs : List Bytes) (kb : Bytes) : Prop where
  text : s = [tilde].intercalate (jwt :: discs) ++ tilde :: kb
  jwt_ne_nil : jwt ≠ []
  jwt_tilde : tilde ∉ jwt
  discs_ne_nil : ∀ d ∈ discs, d ≠ []
  discs_tilde : ∀ d ∈ discs, tilde ∉ d
  kb_tilde : tilde ∉ kb
  kb_dots : kb = [] ∨ kb.count dot = 2

def ParsedSDJWT.text (parsed : ParsedSDJWT) : Bytes :=
  [tilde].intercalate (parsed.jwt :: parsed.disclosures) ++ tilde :: parsed.kbToken

/-- The parser takes `s` exactly if it has the format, and keeps all of it. -/
def ParsesItsFormat (s : Bytes) : Prop :=
  ((∃ parsed, parseSDJWT s = .ok parsed) ↔ ∃ jwt discs kb, HasForm s jwt discs kb)
    ∧ ∀ parsed, parseSDJWT s = .ok parsed → parsed.text = s

theorem exists_parseSDJWT {s : Bytes} : (∃ parsed, parseSDJWT s = .ok parsed) ↔ tilde ∈ s := by
  constructor
  · rintro ⟨parsed, h⟩
    by_contra htilde
    rw [parseSDJWT, splitOn_eq_singleton htilde, ite_err_eq_ok] at h
    cases h.2
  · intro htilde
    obtain ⟨a, b, rfl, ha⟩ := eq_append_cons_of_mem htilde
    obtain ⟨p, parts, hb⟩ := exists_cons_of_ne_nil (splitOn_ne_nil tilde b)
    refine ⟨parseSegments (p :: parts) ⟨a, [], []⟩, ?_⟩
    rw [parseSDJWT, if_neg (by simp), splitOn_append_cons_self_of_not_mem ha, hb]

namespace HasForm

variable {s jwt kb : Bytes} {discs : List Bytes}

theorem tilde_mem (h : HasForm s jwt discs kb) : tilde ∈ s := by
  rw [h.text]
  simp

theorem text_eq (h : HasForm s jwt discs kb) :
    s = [tilde].intercalate (jwt :: (discs ++ [kb])) := by
  rw [h.text, ← cons_append, intercalate_concat tilde kb (by simp)]

theorem tilde_not_mem (h : HasForm s jwt discs kb) : ∀ p ∈ discs ++ [kb], tilde ∉ p := by
  intro p hp
  rcases mem_append.mp hp with hp | hp
  · exact h.discs_tilde p hp
  · exact mem_singleton.mp hp ▸ h.kb_tilde

theorem parse (h : HasForm s jwt discs kb) :
    parseSDJWT s = .ok (parseSegments (discs ++ [kb]) ⟨jwt, [], []⟩) := by
  rw [h.text_eq]
  exact parseSDJWT_intercalate h.jwt_tilde h.tilde_not_mem (by simp)

theorem parsed_disclosures (h : HasForm s jwt discs kb) :
    (parseSegments (discs ++ [kb]) ⟨jwt, [], []⟩).disclosures
      = discs.filter fun d => d.count dot ≠ 2 := by
  have hdiscs : discs.filter (fun d => d ≠ [] ∧ d.count dot ≠ 2)
      = discs.filter fun d => d.count dot ≠ 2 :=
    filter_congr fun d hd => by simp [h.discs_ne_nil d hd]
  have hkb : [kb].filter (fun d => d ≠ [] ∧ d.count dot ≠ 2) = [] := by
    rcases h.kb_dots with hkb | hkb
    · simp [hkb]
    · simp [hkb]
  rw [parseSegments_disclosures, filter_append, hdiscs, hkb]
  simp

theorem tilde_not_mem_kbToken (h : HasForm s jwt discs kb) :
    tilde ∉ (parseSegments (discs ++ [kb]) ⟨jwt, [], []⟩).kbToken := by
  rw [parseSegments_kbToken]
  cases hlast : ((discs ++ [kb]).filter fun s => s.count dot = 2).getLast? with
  | none => exact not_mem_nil
  | some p => exact h.tilde_not_mem p (mem_filter.mp (mem_of_getLast? hlast)).1

theorem count_dot_ne_two (h : HasForm s jwt discs kb)
    (htext : (parseSegments (discs ++ [kb]) ⟨jwt, [], []⟩).text = s) :
    ∀ d ∈ discs, d.count dot ≠ 2 := by
  rw [ParsedSDJWT.text, ← intercalate_concat tilde _ (by simp), h.text_eq, ← cons_append,
    parseSegments_jwt, h.parsed_disclosures] at htext
  have hparts := intercalate_inj ?_ ?_ (by simp) (by simp) htext
  · have hdiscs := (append_inj' (cons.inj hparts).2 rfl).1
    intro d hd
    rw [← hdiscs] at hd
    simpa using (mem_filter.mp hd).2
  · intro p hp
    rcases mem_append.mp hp with hp | hp
    · rcases mem_cons.mp hp with rfl | hp
      · exact h.jwt_tilde
      · exact h.discs_tilde p (mem_filter.mp hp).1
    · exact mem_singleton.mp hp ▸ h.tilde_not_mem_kbToken
  · intro p hp
    rcases mem_cons.mp hp with rfl | hp
    · exact h.jwt_tilde
    · exact h.tilde_not_mem p hp

end HasForm

/-- The parser agrees with its grammar exactly if no disclosure looks like a key binding token. -/
theorem parsesItsFormat_iff (s : Bytes) : ParsesItsFormat s ↔
    tilde ∉ s ∨ ∃ jwt discs kb, HasForm s jwt discs kb ∧ ∀ d ∈ discs, d.count dot ≠ 2 := by
  constructor
  · rintro ⟨hforms, htext⟩
    by_cases htilde : tilde ∈ s
    · obtain ⟨jwt, discs, kb, hform⟩ := hforms.mp (exists_parseSDJWT.mpr htilde)
      exact .inr ⟨jwt, discs, kb, hform, hform.count_dot_ne_two (htext _ hform.parse)⟩
    · exact .inl htilde
  · rintro (htilde | ⟨jwt, discs, kb, hform, hdots⟩)
    · have hparse : ¬ ∃ parsed, parseSDJWT s = .ok parsed := mt exists_parseSDJWT.mp htilde
      refine ⟨iff_of_false hparse ?_, fun parsed h => absurd ⟨parsed, h⟩ hparse⟩
      rintro ⟨jwt, discs, kb, hform⟩
      exact htilde hform.tilde_mem
    · have hparse : parseSDJWT s = .ok ⟨jwt, discs, kb⟩ := by
        rw [hform.text]
        exact parseSDJWT_segments hform.jwt_tilde
          (fun d hd => ⟨hform.discs_ne_nil d hd, hform.discs_tilde d hd, hdots d hd⟩)
          hform.kb_tilde hform.kb_dots
      refine ⟨iff_of_true ⟨_, hparse⟩ ⟨jwt, discs, kb, hform⟩, fun parsed h => ?_⟩
      obtain rfl := Res.ok.inj (hparse.symm.trans h)
      exact hform.text.symm

/-- A missing terminator, a misplaced KB-JWT and no issuer JWT are accepted. -/
theorem parse_outside_format :
    parseSDJWT "a~b" = .ok ⟨"a", ["b"], []⟩ ∧ ¬ ParsesItsFormat "a~b"
      ∧ parseSDJWT "j~a.b.c~d.e.f" = .ok ⟨"j", [], "d.e.f"⟩
      ∧ ¬ ParsesItsFormat "j~a.b.c~d.e.f"
      ∧ parseSDJWT "~" = .ok ⟨[], [], []⟩ := by
  have hterm : parseSDJWT "a~b" = .ok ⟨"a", ["b"], []⟩ := by rfl
  have hkb : parseSDJWT "j~a.b.c~d.e.f" = .ok ⟨"j", [], "d.e.f"⟩ := by rfl
  refine ⟨hterm, fun h => ?_, hkb, fun h => ?_, by rfl⟩
  · exact absurd (h.2 _ hterm) (by decide)
  · exact absurd (h.2 _ hkb) (by decide)

/-! ## The bytes that are hashed -/

variable {enc : Bytes} {d : Disclosure} (C : Crypto)

/-- The digest looked up for a disclosure is that of the text that was sent. -/
def HashedAsSent (enc : Bytes) (d : Disclosure) : Prop :=
  d.digest C = .ok (encodeB64 (C.sha256 enc))
    ∧ ∀ digests disclosed, (discloseSegments C digests [enc] disclosed).isOk = true
      ↔ encodeB64 (C.sha256 enc) ∈ digests

/-- The base64url text of a JSON array, as the encoders write both. -/
def IsCanonical (enc : Bytes) : Prop :=
  ∃ raw arr, enc = encodeB64 raw ∧ unmarshalSlice raw = .ok arr ∧ marshal (.arr arr) = .ok raw

theorem isCanonical_iff (h : parseDisclosure enc = .ok d) : IsCanonical enc ↔ d.encText = enc := by
  obtain ⟨raw, hraw, harr⟩ := parseDisclosure_array h
  obtain ⟨depth, hdec⟩ := parseDisclosure_eq_ok h
  have hsup : d.toArray.supported := d.supported_toArray.trans hdec.value.supported
  constructor
  · rintro ⟨raw', arr, rfl, harr', hmarshal⟩
    rw [decodeB64_encodeB64] at hraw
    obtain rfl := Res.ok.inj hraw
    obtain rfl := Res.ok.inj (harr.symm.trans harr')
    obtain rfl := Res.ok.inj ((marshal_eq_ok hsup).symm.trans hmarshal)
    rfl
  · intro henc
    rw [← henc, Disclosure.encText, decodeB64_encodeB64] at hraw
    obtain rfl := Res.ok.inj hraw
    exact ⟨_, _, henc.symm, harr, marshal_eq_ok hsup⟩

theorem digest_of_parseDisclosure (h : parseDisclosure enc = .ok d) :
    d.digest C = .ok (encodeB64 (C.sha256 d.encText)) := by
  obtain ⟨depth, hdec⟩ := parseDisclosure_eq_ok h
  exact Disclosure.digest_eq_ok.mpr ⟨hdec.value.supported, rfl⟩

theorem discloseSegments_singleton {C : Crypto} (h : parseDisclosure enc = .ok d)
    (digests : List Bytes) (disclosed : Map Value) :
    (discloseSegments C digests [enc] disclosed).isOk
      ↔ encodeB64 (C.sha256 d.encText) ∈ digests := by
  rw [isOk_iff, discloseSegments, h, wrapErr_ok, ok_bind, digest_of_parseDisclosure C h, ok_bind]
  simp only [ite_err_eq_ok, not_not]
  constructor
  · rintro ⟨_, hlisted, -⟩
    exact hlisted
  · intro hlisted
    exact ⟨_, hlisted, rfl⟩

/-- The digest is that of the transmitted text exactly if the text is as the encoder writes it. -/
theorem hashedAsSent_iff (enc : Bytes) (d : Disclosure) (h : parseDisclosure enc = .ok d)
    (hfree : C.CollisionFree {enc, d.encText}) : HashedAsSent C enc d ↔ IsCanonical enc := by
  rw [isCanonical_iff h]
  have hdigest := digest_of_parseDisclosure C h
  constructor
  · rintro ⟨hsent, -⟩
    have hhash := encodeB64_injective (Res.ok.inj (hdigest.symm.trans hsent))
    exact hfree (by simp) (by simp) hhash
  · intro henc
    rw [henc] at hdigest
    refine ⟨hdigest, fun digests disclosed => ?_⟩
    rw [discloseSegments_singleton h, henc]

namespace Sample

def flag : Disclosure := ⟨"s", "k", .bool true⟩

def flagSpaced : Bytes := encodeB64 "[\"s\", \"k\", true]"

theorem parseDisclosure_flag : parseDisclosure flag.encText = .ok flag := by rfl

theorem parseDisclosure_flagSpaced : parseDisclosure flagSpaced = .ok flag := by rfl

theorem collisionFree_flagSpaced : Crypto.standIn.CollisionFree {flagSpaced, flag.encText} := by
  have hne : Crypto.standIn.sha256 flagSpaced ≠ Crypto.standIn.sha256 flag.encText := by decide
  rintro x (rfl | rfl) y (rfl | rfl) h
  · rfl
  · exact absurd h hne
  · exact absurd h.symm hne
  · rfl

end Sample

open Sample

theorem hashedAsSent_flag : HashedAsSent Crypto.standIn flag.encText flag := by
  have hfree : Crypto.standIn.CollisionFree {flag.encText, flag.encText} := by
    rintro x (rfl | rfl) y (rfl | rfl) -
    all_goals rfl
  exact (hashedAsSent_iff Crypto.standIn flag.encText flag
    parseDisclosure_flag hfree).mpr ((isCanonical_iff parseDisclosure_flag).mpr rfl)

theorem hash_of_spaced_disclosure : ¬ HashedAsSent Crypto.standIn flagSpaced flag
    ∧ parseDisclosure flagSpaced = .ok flag
    ∧ Crypto.standIn.CollisionFree {flagSpaced, flag.encText}
    ∧ (discloseSegments Crypto.standIn [encodeB64 (Crypto.standIn.sha256 flagSpaced)]
      [flagSpaced] Map.empty).isOk = false
    ∧ (discloseSegments Crypto.standIn [encodeB64 (Crypto.standIn.sha256 flag.encText)]
      [flagSpaced] Map.empty).isOk = true := by
  refine ⟨?_, parseDisclosure_flagSpaced, collisionFree_flagSpaced, by decide, by decide⟩
  rintro ⟨hdigest, -⟩
  have hne : flag.digest Crypto.standIn
      ≠ .ok (encodeB64 (Crypto.standIn.sha256 flagSpaced)) := by decide
  exact hne hdigest

end TptIdentity.Vc
