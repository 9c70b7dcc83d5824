import TptIdentity.VcPresentation

/-!
# Package pe: presentation exchange

A definition describes which credentials a verifier wants, and a submission maps its descriptors
to credentials. `Evaluate` checks the constraints on their subjects and looks at nothing else
(`evaluate_satisfied`).
-/

namespace TptIdentity.Pe

open Go Vc List Res

/-! ## Definitions and submissions -/

structure Filter where
  pattern : Bytes
  const : Option Value
  enum : List Value

structure Field where
  path : List Bytes
  filter : Option Filter
  optional : Bool

structure Constraints where
  fields : List Field

structure InputDescriptor where
  id : Bytes
  constraints : Option Constraints

structure PresentationDefinition where
  id : Bytes
  inputDescriptors : List InputDescriptor

structure Descriptor where
  id : Bytes
  path : Bytes

structure PresentationSubmission where
  definitionID : Bytes
  descriptorMap : List Descriptor

structure EvaluationResult where
  satisfied : Bool
  errors : List Err
  matchedCredentials : Map VerifiableCredential

/-! ## Credentials by path -/

/-- `fmt.Sscanf(s, "%d", &idx)`: no newline is skipped, and what follows the digits is ignored. -/
def sscanfInt (s : Bytes) : Int :=
  let t := trimLeftSpace s.length s
  if (s.take (s.length - t.length)).contains 10 then 0
  else
    let sign := t.take (if t.head? = some 43 ∨ t.head? = some 45 then 1 else 0)
    (atoi (sign ++ (t.drop sign.length).takeWhile isDigit)).getD 0

def extractArrayIndex (path : Bytes) : Int :=
  match lastIndex path "[", lastIndex path "]" with
  | some lb, some rb => if rb ≤ lb then 0 else sscanfInt ((path.take rb).drop (lb + 1))
  | _, _ => 0

def resolveCredential (creds : List VerifiableCredential) (path : Bytes) :
    Res VerifiableCredential :=
  let idx := extractArrayIndex path
  match if idx < 0 then none else creds[idx.toNat]? with
  | some cred => .ok cred
  | none => .err (.new "path %q: credential index %d out of range (have %d)"
      [path, itoa idx, itoa creds.length])

/-! ## Constraints -/

def resolveParts : Value → List Bytes → Value
  | current, [] => current
  | current, part :: parts =>
    if part = [] then resolveParts current parts
    else
      match current with
      | .obj m => resolveParts ((assoc part m).getD .null) parts
      | _ => .null

def resolveJSONPath (m : Map Value) (path : Bytes) : Value :=
  let path := trimPrefix path "$."
  let path := trimPrefix path "$"
  resolveParts (.obj m.entries) (path.splitOn 46)

/-- `jsonEqual`: what cannot be written compares as the empty text. -/
def jsonEqual (a b : Value) : Bool :=
  decide ((marshal a).toOption.getD [] = (marshal b).toOption.getD [])

def trim (s cutset : Bytes) : Bytes :=
  (s.dropWhile cutset.contains).rdropWhile cutset.contains

def matchesPattern (pattern s : Bytes) : Bool :=
  if (str "^").isPrefixOf pattern ∧ (str "$").isSuffixOf pattern then
    decide (s = (pattern.take (pattern.length - 1)).drop 1)
  else contains s (trim pattern "^$.*")

def applyPattern (f : Filter) (val : Value) : Res Unit :=
  if f.pattern = [] then .ok ()
  else
    match val with
    | .str s =>
      if matchesPattern f.pattern s then .ok ()
      else .err (.new "value does not match pattern %q" [f.pattern])
    | _ => .err (.new "pattern filter requires string value" [])

def applyFilter (f : Filter) (val : Value) : Res Unit :=
  if f.const.any fun c => !jsonEqual val c then .err (.new "value does not match const" [])
  else if f.enum = [] then applyPattern f val
  else if f.enum.any fun e => jsonEqual val e then .ok ()
  else .err (.new "value not in enum" [])

def pathFound (subject : Map Value) (filter : Option Filter) (path : Bytes) : Bool :=
  match resolveJSONPath subject path with
  | .null => false
  | val => filter.all fun f => (applyFilter f val).isOk

def checkFields (subject : Map Value) : List Field → Res Unit
  | [] => .ok ()
  | field :: fields =>
    if field.optional ∨ field.path.any (pathFound subject field.filter) then
      checkFields subject fields
    else .err (.new "required field %v not found or filter not satisfied"
      ["[" ++ [32].intercalate field.path ++ "]"])

def checkConstraints (c : Constraints) (cred : VerifiableCredential) : Res Unit := do
  let subjectBytes ← (marshal cred.credentialSubject.value).wrapErr "marshal subject: %w" []
  let subjectMap ← (unmarshalMap subjectBytes).wrapErr "unmarshal subject: %w" []
  checkFields subjectMap c.fields

/-! ## Evaluation -/

def descMap (submission : PresentationSubmission) : Map Bytes :=
  Map.empty.setAll (submission.descriptorMap.map fun d => (d.id, d.path))

def matchDescriptor (descMap : Map Bytes) (creds : List VerifiableCredential)
    (inputDesc : InputDescriptor) : Res VerifiableCredential :=
  match descMap.get inputDesc.id with
  | none => .err (.new "missing descriptor_map entry for input_descriptor %q" [inputDesc.id])
  | some path => do
    let cred ← (resolveCredential creds path).wrapErr "descriptor %q: %w" [inputDesc.id]
    match inputDesc.constraints with
    | none => .ok cred
    | some c => do
      (checkConstraints c cred).wrapErr "descriptor %q constraint: %w" [inputDesc.id]
      return cred

def evaluateLoop (descMap : Map Bytes) (creds : List VerifiableCredential) :
    List InputDescriptor → List Err → Map VerifiableCredential →
      Res (List Err × Map VerifiableCredential)
  | [], errors, matched => .ok (errors, matched)
  | inputDesc :: rest, errors, matched =>
    match matchDescriptor descMap creds inputDesc with
    | .ok cred => evaluateLoop descMap creds rest errors (matched.set inputDesc.id cred)
    | .err e => evaluateLoop descMap creds rest (errors ++ [e]) matched
    | .panics reason => .panics reason

def evaluate (definition : PresentationDefinition) (submission : PresentationSubmission)
    (vp : VerifiablePresentation) : Res EvaluationResult :=
  if submission.definitionID ≠ definition.id then
    .err (.new "pe: submission.definition_id %q does not match definition.id %q"
      [submission.definitionID, definition.id])
  else do
    let (errors, matched) ← evaluateLoop (descMap submission) vp.verifiableCredential
      definition.inputDescriptors [] .empty
    let satisfied := decide (errors = []
      ∧ matched.entries.length = definition.inputDescriptors.length)
    return ⟨satisfied, errors, matched⟩

/-! ## The endpoint -/

structure SubmitPresentationBody where
  definition : PresentationDefinition
  presentation : VerifiablePresentation
  submission : PresentationSubmission

def evaluationAnswer : Res EvaluationResult → Res Oidc.Response
  | .err e => .ok (.error 400 ("evaluation error: " ++ e.text))
  | .ok result =>
    let errors := if result.errors = [] then .null
      else .arr (result.errors.map fun e => .str e.text)
    .ok (.json (if result.satisfied then 200 else 422)
      (.obj [("errors", errors),
        ("matched_credentials", .int result.matchedCredentials.entries.length),
        ("satisfied", .bool result.satisfied)]))
  | .panics reason => .panics reason

def handleSubmitPresentation : Option SubmitPresentationBody → Res Oidc.Response
  | none => .ok (.error 400 "invalid request")
  | some body =>
    if body.definition.id = [] then .ok (.error 400 "presentation_definition required")
    else evaluationAnswer (evaluate body.definition body.submission body.presentation)

def ReportsSatisfied (r : Res Oidc.Response) : Prop :=
  ∃ status members, r = .ok (.json status (.obj members))
    ∧ (str "satisfied", Value.bool true) ∈ members

/-! ## What is checked -/

/-- What has been looked at: of the presentation the subjects of the credentials, and no proof. -/
structure Satisfies (body : SubmitPresentationBody) : Prop where
  id_ne_nil : body.definition.id ≠ []
  definitionID : body.submission.definitionID = body.definition.id
  /-- Each descriptor has an identifier of its own. -/
  nodup : (body.definition.inputDescriptors.map InputDescriptor.id).Nodup
  /-- Each descriptor is mapped to a credential that meets its constraints. -/
  descriptors : ∀ inputDesc ∈ body.definition.inputDescriptors, ∃ path cred,
    (descMap body.submission).get inputDesc.id = some path
    ∧ resolveCredential body.presentation.verifiableCredential path = .ok cred
    ∧ ∀ c ∈ inputDesc.constraints, checkConstraints c cred = .ok ()

theorem matchDescriptor_eq_ok {descMap : Map Bytes} {creds : List VerifiableCredential}
    {inputDesc : InputDescriptor} {cred : VerifiableCredential} :
    matchDescriptor descMap creds inputDesc = .ok cred ↔
      ∃ path, descMap.get inputDesc.id = some path ∧ resolveCredential creds path = .ok cred
        ∧ ∀ c ∈ inputDesc.constraints, checkConstraints c cred = .ok () := by
  unfold matchDescriptor
  cases descMap.get inputDesc.id with
  | none => simp
  | some path =>
    cases inputDesc.constraints with
    | none => simp [bind_eq_ok]
    | some c =>
      have hunit : (∃ x, checkConstraints c cred = .ok x) ↔ checkConstraints c cred = .ok () :=
        ⟨fun ⟨_, h⟩ => h, fun h => ⟨(), h⟩⟩
      simp [bind_eq_ok, hunit]

theorem exists_forall₂_iff {S T : Type} {R : S → T → Prop} {l : List S} :
    (∃ l', List.Forall₂ R l l') ↔ ∀ a ∈ l, ∃ b, R a b := by
  induction l with
  | nil => simp
  | cons a l ih =>
    rw [forall_mem_cons, ← ih]
    constructor
    · rintro ⟨l', h⟩
      cases h with
      | cons hb hl => exact ⟨⟨_, hb⟩, _, hl⟩
    · rintro ⟨⟨b, hb⟩, l', hl⟩
      exact ⟨b :: l', .cons hb hl⟩

theorem evaluateLoop_no_errors {descMap : Map Bytes} {creds : List VerifiableCredential} :
    ∀ {descs : List InputDescriptor} {errors : List Err}
      {matched matched' : Map VerifiableCredential},
      evaluateLoop descMap creds descs errors matched = .ok ([], matched') ↔
        errors = [] ∧ ∃ found, List.Forall₂
          (fun d cred => matchDescriptor descMap creds d = .ok cred) descs found
          ∧ matched' = matched.setAll ((descs.map InputDescriptor.id).zip found)
  | [], errors, matched, matched' => by
    rw [evaluateLoop, Res.ok.injEq, Prod.mk.injEq]
    refine and_congr_right fun _ => ?_
    constructor
    · rintro rfl
      exact ⟨[], .nil, rfl⟩
    · rintro ⟨found, -, rfl⟩
      rfl
  | inputDesc :: rest, errors, matched, matched' => by
    rw [evaluateLoop]
    cases hmatch : matchDescriptor descMap creds inputDesc with
    | ok cred =>
      rw [evaluateLoop_no_errors]
      refine and_congr_right fun _ => ?_
      constructor
      · rintro ⟨found, hfound, rfl⟩
        exact ⟨cred :: found, .cons hmatch hfound, rfl⟩
      · rintro ⟨found, hfound, rfl⟩
        cases hfound with
        | cons hcred hfound =>
          obtain rfl := Res.ok.inj (hmatch.symm.trans hcred)
          exact ⟨_, hfound, rfl⟩
    | err e =>
      rw [evaluateLoop_no_errors]
      refine iff_of_false (fun h => by simp at h) ?_
      rintro ⟨-, found, hfound, -⟩
      cases hfound with
      | cons hcred _ => exact err_ne_ok _ _ (hmatch.symm.trans hcred)
    | panics reason =>
      refine iff_of_false (panics_ne_ok _ _) ?_
      rintro ⟨-, found, hfound, -⟩
      cases hfound with
      | cons hcred _ => exact panics_ne_ok _ _ (hmatch.symm.trans hcred)

theorem evaluate_eq_satisfied {definition : PresentationDefinition}
    {submission : PresentationSubmission} {vp : VerifiablePresentation}
    {result : EvaluationResult} :
    (evaluate definition submission vp = .ok result ∧ result.satisfied)
      ↔ submission.definitionID = definition.id
        ∧ (definition.inputDescriptors.map InputDescriptor.id).Nodup
        ∧ ∃ found, List.Forall₂ (fun d cred => matchDescriptor (descMap submission)
            vp.verifiableCredential d = .ok cred) definition.inputDescriptors found
          ∧ result = ⟨true, [], Map.empty.setAll
            ((definition.inputDescriptors.map InputDescriptor.id).zip found)⟩ := by
  have hlength (found : List VerifiableCredential)
      (hlen : definition.inputDescriptors.length = found.length) :
      ((Map.empty.setAll ((definition.inputDescriptors.map InputDescriptor.id).zip
        found)).entries.length = definition.inputDescriptors.length)
        ↔ (definition.inputDescriptors.map InputDescriptor.id).Nodup := by
    have hzip := length_assocOf_eq_iff
      (l := (definition.inputDescriptors.map InputDescriptor.id).zip found)
    rw [map_fst_zip (by simp [hlen]), length_zip, length_map, ← hlen, Nat.min_self] at hzip
    exact hzip
  constructor
  · rintro ⟨heval, hsat⟩
    obtain ⟨hdef, heval⟩ := Res.ite_err_eq_ok.mp heval
    obtain ⟨⟨errors, matched⟩, hloop, hresult⟩ := Res.bind_eq_ok.mp heval
    obtain rfl := Res.ok.inj hresult
    obtain ⟨rfl, hcount⟩ := of_decide_eq_true hsat
    obtain ⟨-, found, hfound, rfl⟩ := evaluateLoop_no_errors.mp hloop
    refine ⟨not_not.mp hdef, (hlength found hfound.length_eq).mp hcount, found, hfound, ?_⟩
    simp [hcount]
  · rintro ⟨hdef, hnodup, found, hfound, rfl⟩
    have hcount := (hlength found hfound.length_eq).mpr hnodup
    rw [evaluate, if_neg (not_not.mpr hdef),
      evaluateLoop_no_errors.mpr ⟨rfl, found, hfound, rfl⟩, ok_bind]
    simp [hcount]

theorem evaluate_satisfied {body : SubmitPresentationBody} (hid : body.definition.id ≠ []) :
    (∃ result, evaluate body.definition body.submission body.presentation = .ok result
      ∧ result.satisfied) ↔ Satisfies body := by
  simp only [evaluate_eq_satisfied]
  constructor
  · rintro ⟨_, hdef, hnodup, found, hfound, -⟩
    refine ⟨hid, hdef, hnodup, fun d hd => ?_⟩
    obtain ⟨cred, hcred⟩ := exists_forall₂_iff.mp ⟨found, hfound⟩ d hd
    obtain ⟨path, hpath⟩ := matchDescriptor_eq_ok.mp hcred
    exact ⟨path, cred, hpath⟩
  · intro h
    have hmatch : ∀ d ∈ body.definition.inputDescriptors, ∃ cred,
        matchDescriptor (descMap body.submission) body.presentation.verifiableCredential d
          = .ok cred := by
      intro d hd
      obtain ⟨path, cred, hcred⟩ := h.descriptors d hd
      exact ⟨cred, matchDescriptor_eq_ok.mpr ⟨path, hcred⟩⟩
    obtain ⟨found, hfound⟩ := exists_forall₂_iff.mpr hmatch
    exact ⟨_, h.definitionID, h.nodup, found, hfound, rfl⟩

theorem reportsSatisfied_evaluationAnswer {r : Res EvaluationResult} :
    ReportsSatisfied (evaluationAnswer r) ↔ ∃ result, r = .ok result ∧ result.satisfied := by
  cases r with
  | err e =>
    refine iff_of_false ?_ fun ⟨_, h, _⟩ => err_ne_ok _ _ h
    rintro ⟨status, members, h, -⟩
    cases h
  | panics reason =>
    refine iff_of_false ?_ fun ⟨_, h, _⟩ => panics_ne_ok _ _ h
    rintro ⟨status, members, h, -⟩
    cases h
  | ok result =>
    constructor
    · rintro ⟨status, members, h, hmem⟩
      obtain ⟨-, hmembers⟩ := Oidc.Response.json.inj (Res.ok.inj h)
      obtain rfl := Value.obj.inj hmembers
      refine ⟨result, rfl, ?_⟩
      rcases List.mem_cons.mp hmem with h | hmem
      · exact absurd (Prod.mk.inj h).1 (by decide)
      · rcases List.mem_cons.mp hmem with h | hmem
        · exact absurd (Prod.mk.inj h).1 (by decide)
        · exact (Value.bool.inj (Prod.mk.inj (List.mem_singleton.mp hmem)).2).symm
    · rintro ⟨result', h, hsat⟩
      obtain rfl := Res.ok.inj h
      refine ⟨_, _, rfl, ?_⟩
      rw [hsat]
      exact .tail _ (.tail _ (.head _))

theorem reportsSatisfied_iff {body : SubmitPresentationBody} :
    ReportsSatisfied (handleSubmitPresentation (some body)) ↔ Satisfies body := by
  by_cases hid : body.definition.id = []
  · rw [handleSubmitPresentation, if_pos hid]
    refine iff_of_false ?_ fun h => h.id_ne_nil hid
    rintro ⟨status, members, h, -⟩
    cases h
  · rw [handleSubmitPresentation, if_neg hid, reportsSatisfied_evaluationAnswer,
      evaluate_satisfied hid]

/-- What the endpoint calls satisfied is verified exactly if it verifies on its own: no proof is
checked. -/
theorem submit_iff (v : Verifier) (C : Crypto) (sha512 : Bytes → Bytes) (clock : Nat → Nat → Int)
    (opts : VerifyPresentationOptions) (body : Option SubmitPresentationBody) :
    (ReportsSatisfied (handleSubmitPresentation body) → ∃ b, body = some b
      ∧ v.verifyPresentation C sha512 clock b.presentation opts = .ok ())
      ↔ ∀ b, body = some b → Satisfies b → ∃ proof doc pub sig, b.presentation.proof = some proof
        ∧ (opts.expectedChallenge = [] ∨ b.presentation.challenge = opts.expectedChallenge)
        ∧ (opts.expectedDomain = [] ∨ b.presentation.domain = opts.expectedDomain)
        ∧ v.resolver.resolve b.presentation.holder = .ok doc
        ∧ doc.Holds v.resolver proof.verificationMethod pub
        ∧ decodeB64 proof.proofValue = .ok sig
        ∧ Tptcrypto.verifyJSON sha512 C.ed25519 pub b.presentation.toPresentation.value sig = .ok ()
        ∧ ∀ i vc, b.presentation.verifiableCredential[i]? = some vc →
          v.verify C sha512 (clock i) vc = .ok () := by
  simp only [← Verifier.verifyPresentation_eq_ok]
  cases body with
  | none =>
    refine iff_of_true ?_ fun b hb => by cases hb
    rintro ⟨status, members, h, -⟩
    cases h
  | some body =>
    rw [reportsSatisfied_iff]
    constructor
    · intro h b hb hsat
      obtain rfl := Option.some.inj hb
      obtain ⟨b', hb', hverify⟩ := h hsat
      exact Option.some.inj hb' ▸ hverify
    · intro h hsat
      exact ⟨body, rfl, h body rfl hsat⟩

namespace SampleSubmission

def forged : VerifiableCredential where
  toCredential := { SamplePresentation.cred (.utc 0) with
    credentialSubject := ⟨"did:web:mallory", Map.empty.set "degree" "MD"⟩ }
  proof := none

def body : SubmitPresentationBody where
  definition := ⟨"d", [⟨"i", some ⟨[⟨["$.claims.degree"],
    some ⟨[], some (.str "MD"), []⟩, false⟩]⟩⟩]⟩
  presentation := { VerifiablePresentation.zero with verifiableCredential := [forged] }
  submission := ⟨"d", [⟨"i", "$.verifiableCredential[0]"⟩]⟩

theorem satisfies_body : Satisfies body where
  id_ne_nil := by decide
  definitionID := rfl
  nodup := nodup_singleton _
  descriptors := by
    refine List.forall_mem_singleton.mpr ⟨"$.verifiableCredential[0]", forged, ?_, rfl, ?_⟩
    · decide +kernel
    · rintro c hc
      obtain rfl := Option.mem_some_iff.mp hc
      decide +kernel

end SampleSubmission

open SampleSubmission

theorem submit_forged :
    ReportsSatisfied (handleSubmitPresentation (some body))
      ∧ SamplePresentation.verifier.verifyPresentation SamplePresentation.crypto
        SamplePresentation.sha512 (fun _ _ => 0) body.presentation ⟨[], []⟩
        = .err (.new "verify presentation: no proof" []) :=
  ⟨reportsSatisfied_iff.mpr satisfies_body, rfl⟩

end TptIdentity.Pe
