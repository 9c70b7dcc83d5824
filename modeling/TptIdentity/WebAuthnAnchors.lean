import TptIdentity.WebAuthnModel

/-!
# Passkeys and the DID document

A passkey is a credential in the store and a verification method in the DID document.
`inSync_iff` says exactly which requests keep the two in step: a deletion, two IDs with the same
first eight characters, and a document that cannot be read or written do not.
-/

namespace TptIdentity.WebAuthn

open Go Store Oidc Bridge Proc List Res

variable {S : Type}

/-! ## The two places -/

def webAuthnMethods (doc : Did.Document) : List Did.VerificationMethod :=
  doc.verificationMethod.filter fun vm => vm.type = webAuthnType

def methodOf (subject : Bytes) (c : WebAuthnCredential) : Option Did.VerificationMethod :=
  if c.subjectDID = subject then
    some (verificationMethod subject c.credentialID c.publicKeyCBOR)
  else none

def registeredMethods (db : DB) (subject : Bytes) : List Did.VerificationMethod :=
  db.webAuthnCredentials.rows.filterMap (methodOf subject)

def InSync (subject : Bytes) (db : DB) : Prop :=
  ∃ doc, db.document subject = .ok doc
    ∧ (webAuthnMethods doc).Perm (registeredMethods db subject)

structure Stored (subject : Bytes) (db : DB) (doc : Did.Document) : Prop where
  dated : doc.Dated
  id : coerce doc.id = subject
  text : (db.documents.find subject).map DocumentRow.document = some doc.value.text

def Kept (subject : Bytes) (db : DB) : Prop :=
  ∃ doc, Stored subject db doc ∧ (webAuthnMethods doc.coerced).Perm (registeredMethods db subject)

variable {subject : Bytes} {db : DB} {doc : Did.Document}

theorem Stored.document (h : Stored subject db doc) : db.document subject = .ok doc.coerced := by
  rw [DB.document, h.text]
  exact Did.Document.unmarshal_text h.dated

theorem Stored.validUtf8 (h : Stored subject db doc) : validUtf8 subject := by
  rw [← h.id]
  exact validUtf8_coerce doc.id

theorem Kept.inSync (h : Kept subject db) : InSync subject db := by
  obtain ⟨doc, hstored, hperm⟩ := h
  exact ⟨doc.coerced, hstored.document, hperm⟩

/-! ## Documents -/

theorem validUtf8_concat {s t : Bytes} (hs : validUtf8 s) (ht : IsAscii t) :
    validUtf8 (s ++ t) := by
  rw [validUtf8_append hs]
  exact validUtf8_of_ascii ht

theorem coerced_verificationMethod (hsubject : validUtf8 subject) (id key : Bytes) :
    (verificationMethod subject (encodeB64 id) key).coerced
      = verificationMethod subject (encodeB64 id) key := by
  have hshort : IsAscii ((encodeB64 id).take 8) := fun b hb =>
    isAscii_encodeB64 id b (mem_of_mem_take hb)
  have hid : coerce (vmID subject (encodeB64 id)) = vmID subject (encodeB64 id) :=
    coerce_eq_self (validUtf8_concat (validUtf8_concat hsubject (by decide)) hshort)
  have hkey : coerce ("u" ++ encodeB64 key) = "u" ++ encodeB64 key :=
    coerce_eq_self (validUtf8_concat (by decide) (isAscii_encodeB64 key))
  have htype : coerce webAuthnType = webAuthnType := by decide
  simp only [Did.VerificationMethod.coerced, verificationMethod, hid, hkey, htype,
    coerce_eq_self hsubject, Option.map_some, Option.map_none]

theorem verificationMethod_coerced_coerced (doc : Did.Document) :
    doc.coerced.verificationMethod.map Did.VerificationMethod.coerced
      = doc.coerced.verificationMethod := by
  show (doc.verificationMethod.map _).map _ = doc.verificationMethod.map _
  rw [map_map]
  exact map_congr_left fun vm _ => vm.coerced_coerced

theorem webAuthnMethods_anchored {vm : Did.VerificationMethod}
    (hdoc : doc.verificationMethod.map Did.VerificationMethod.coerced = doc.verificationMethod)
    (htype : vm.type = webAuthnType) (hvm : vm.coerced = vm) :
    webAuthnMethods (anchored doc vm).coerced = webAuthnMethods doc ++ [vm] := by
  have hmethods : (anchored doc vm).coerced.verificationMethod
      = doc.verificationMethod ++ [vm] := by
    show (doc.verificationMethod ++ [vm]).map Did.VerificationMethod.coerced = _
    rw [map_append, hdoc, map_singleton, hvm]
  have hself : [vm].filter (fun vm => vm.type = webAuthnType) = [vm] :=
    List.filter_eq_self.mpr (List.forall_mem_singleton.mpr (decide_eq_true htype))
  rw [webAuthnMethods, hmethods, filter_append, hself]
  rfl

theorem stored_saveDocument (hdated : doc.Dated)
    (hid : doc.id = subject) (hsubject : validUtf8 subject) (now : Int)
    {faults : Faults} (hfaults : faults 0 = none) (db : DB) :
    Stored subject ((saveDocument doc.id doc.value now).run faults db).2 doc
      ∧ ((saveDocument doc.id doc.value now).run faults db).2.webAuthnCredentials
          = db.webAuthnCredentials := by
  simp only [saveDocument, Did.Document.marshal_value hdated, exec, run_query, hfaults]
  refine ⟨⟨hdated, ?_, ?_⟩, trivial⟩
  · rw [hid]
    exact coerce_eq_self hsubject
  · subst hid
    rw [Table.find_upsert_self db.documents DocumentRow.did_merge fun old hold => by
      rw [DocumentRow.merge, hold]]
    rfl

theorem saveDocument_fails (hdated : doc.Dated) (now : Int)
    {faults : Faults} {e : Err} (hfaults : faults 0 = some e) (db : DB) :
    ((saveDocument doc.id doc.value now).run faults db).2 = db := by
  simp only [saveDocument, Did.Document.marshal_value hdated, exec, run_query, hfaults]

/-! ## Credentials -/

theorem methodOf_merge (subject : Bytes) (old new : WebAuthnCredential) :
    methodOf subject (old.merge new) = methodOf subject old := rfl

def Known (db : DB) (c : Credential) : Prop :=
  db.webAuthnCredentials.find (encodeB64 c.id) ≠ none

def Credential.method (subject : Bytes) (c : Credential) : Did.VerificationMethod :=
  verificationMethod subject (encodeB64 c.id) c.publicKey

variable {row : WebAuthnCredential} {credID : Bytes}

section Registered

variable {subject : Bytes} {db : DB} {c : Credential} (now : Int)

def newMethods (subject : Bytes) (db : DB) (c : Credential) : List Did.VerificationMethod :=
  if db.webAuthnCredentials.find (encodeB64 c.id) = none then [c.method subject] else []

theorem registeredMethods_put :
    registeredMethods (db.putWebAuthnCredential (storedCredential subject now c)) subject
      = registeredMethods db subject ++ newMethods subject db c := by
  unfold newMethods
  split
  · next hnew =>
    have hput := Table.filterMap_upsert_of_none WebAuthnCredential.credentialID_merge
      (r := storedCredential subject now c) hnew (methodOf subject)
    have hmethod : methodOf subject (storedCredential subject now c) = some (c.method subject) :=
      if_pos rfl
    rw [hmethod] at hput
    exact hput
  · next hknown =>
    obtain ⟨row, hrow⟩ := Option.ne_none_iff_exists'.mp hknown
    rw [append_nil]
    exact Table.filterMap_upsert_of_some WebAuthnCredential.credentialID_merge
      (r := storedCredential subject now c) hrow (methodOf_merge subject)

theorem registeredMethods_delete (hrow : db.webAuthnCredentials.find credID = some row)
    (hsubject : row.subjectDID = subject) :
    (registeredMethods db subject).length
      = (registeredMethods { db with
          webAuthnCredentials := db.webAuthnCredentials.delete credID } subject).length + 1 := by
  have hperm := (Table.perm_cons_delete hrow).filterMap (methodOf subject)
  have hmethod : methodOf subject row
      = some (verificationMethod subject row.credentialID row.publicKeyCBOR) := if_pos hsubject
  rw [filterMap_cons_some hmethod] at hperm
  exact hperm.length_eq

end Registered

/-! ## What a registration writes -/

def baseDocument (subject : Bytes) (db : DB) (faults : Faults) : Did.Document :=
  (match faults 0 with
    | none => db.document subject
    | some e => readDocument (.err e)).getD (minimalDocument subject)

theorem run_anchorIn_of_hasMethod
    (h : hasMethod doc (vmID subject credID)) (now : Int) (key : Bytes)
    (faults : Faults) (db : DB) :
    ((anchorIn doc now subject credID key).run faults db).2 = db := by
  rw [anchorIn, if_pos h]
  rfl

theorem run_anchorIn (h : ¬hasMethod doc (vmID subject credID)) (now : Int) (key : Bytes)
    (faults : Faults) (db : DB) :
    ((anchorIn doc now subject credID key).run faults db).2
      = ((saveDocument (anchored doc (verificationMethod subject credID key)).id
          (anchored doc (verificationMethod subject credID key)).value now).run faults db).2 := by
  rw [anchorIn, if_neg h]
  exact congrArg Prod.snd (run_bind_pure ..)

theorem run_anchorWebAuthnKey (now : Int) (subject credID key : Bytes) (faults : Faults) (db : DB) :
    (anchorWebAuthnKey now subject credID key).run faults db
      = (anchorIn (baseDocument subject db faults) now subject credID key).run
          (fun n => faults (n + 1)) db := by
  rw [anchorWebAuthnKey, getDocument, run_lookup_bind, baseDocument]
  cases faults 0 with
  | none => rfl
  | some e => rfl

variable (lib : Library S) (srv : Server S) (env : Env) (faults : Faults) (r : Request)

def accepted (subject : Bytes) (session : S) (body : Bytes) (faults : Faults) (db : DB) :
    Option Credential :=
  if faults 0 = none ∧ faults 1 = none then
    (lib.finishRegistration
      ⟨subject, ((listWebAuthnCredentials subject).run (fun _ => none) db).1.getD []⟩
      session body).toOption
  else none

def afterRegistration (subject : Bytes) (faults : Faults) (db : DB) (c : Credential) :
    DB :=
  ((anchorWebAuthnKey (env.clock 2) subject (encodeB64 c.id) c.publicKey).run
    (fun n => faults (n + 2))
    (db.putWebAuthnCredential (storedCredential subject (env.clock 1) c))).2

theorem run_finishRegistration (subject : Bytes) (session : S) (body : Bytes)
    (faults : Faults) (db : DB) :
    ((finishRegistration lib env subject session body).run faults db).2
      = (accepted lib subject session body faults db).elim db
          (afterRegistration env subject faults db) := by
  rw [finishRegistration, listWebAuthnCredentials, select, run_query_bind]
  cases hlist : faults 0 with
  | some e =>
    rw [accepted, if_neg fun h => by rw [hlist] at h; cases h.1]
    rfl
  | none =>
    simp only [accepted, hlist, true_and, listWebAuthnCredentials, select, run_query, getD_ok]
    cases hfinish : lib.finishRegistration _ session body with
    | err e =>
      have hnone : (err e : Res Credential).toOption = none := rfl
      rw [hnone, ite_self]
      rfl
    | panics reason =>
      have hnone : (panics reason : Res Credential).toOption = none := rfl
      rw [hnone, ite_self]
      rfl
    | ok c =>
      simp only [saveWebAuthnCredential, exec, run_query_bind]
      cases hsave : faults 1 with
      | some e =>
        rfl
      | none =>
        exact congrArg Prod.snd (run_bind_pure ..)

/-! ## What a deletion removes -/

def removed (subject credID : Bytes) (faults : Faults) (db : DB) :
    Option WebAuthnCredential :=
  if credID ≠ [] ∧ faults 0 = none ∧ faults 1 = none then
    (db.webAuthnCredentials.find credID).filter fun row => row.subjectDID = subject
  else none

theorem run_deleteCredentialOf (subject credID : Bytes) (faults : Faults) (db : DB) :
    ((deleteCredentialOf subject credID).run faults db).2
      = (removed subject credID faults db).elim db fun _ =>
          { db with webAuthnCredentials := db.webAuthnCredentials.delete credID } := by
  unfold deleteCredentialOf
  by_cases hempty : credID = []
  · rw [if_pos hempty, removed, if_neg fun h => h.1 hempty]
    rfl
  · rw [if_neg hempty, getWebAuthnCredential, run_lookup_bind]
    cases hget : faults 0 with
    | some e =>
      rw [removed, if_neg fun h => by rw [hget] at h; cases h.2.1]
      rfl
    | none =>
      cases hrow : db.webAuthnCredentials.find credID with
      | none =>
        rw [removed, hrow, Option.filter_none, ite_self]
        rfl
      | some row =>
        simp only [found, wrapErr_ok]
        by_cases hsubject : row.subjectDID = subject
        · have hfilter : (some row).filter (fun row => row.subjectDID = subject) = some row :=
            Option.filter_some_pos (decide_eq_true hsubject)
          rw [if_neg (not_not.mpr hsubject), deleteWebAuthnCredential, exec, run_query_bind,
            removed, hrow, hfilter]
          cases hdelete : faults 1 with
          | none =>
            rw [if_pos ⟨hempty, hget, rfl⟩]
            rfl
          | some e =>
            rw [if_neg fun h => Option.some_ne_none e h.2.2]
            rfl
        · have hfilter : (some row).filter (fun row => row.subjectDID = subject) = none :=
            Option.filter_some_neg (by simpa using hsubject)
          rw [if_pos hsubject, removed, hrow, hfilter, ite_self]
          rfl

/-! ## Registrations that keep the two in step -/

/-- The document can be written, and has no method with that ID or cannot be read. -/
structure Writes (subject : Bytes) (db : DB) (faults : Faults) (c : Credential) :
    Prop where
  saved : faults 3 = none
  free : faults 2 = none → ∀ doc, db.document subject = .ok doc →
    hasMethod doc (c.method subject).id = false

structure Anchors (subject : Bytes) (db : DB) (faults : Faults) (c : Credential) :
    Prop where
  added : Writes subject db faults c → faults 2 = none → ¬Known db c
  replaced : Writes subject db faults c → faults 2 ≠ none →
    (if db.webAuthnCredentials.find (encodeB64 c.id) = none then registeredMethods db subject = []
      else registeredMethods db subject = [c.method subject])
  skipped : ¬Writes subject db faults c → Known db c

section Registration

variable {subject : Bytes} {db db' : DB} {doc doc' : Did.Document} {faults : Faults}
  {c : Credential}

theorem inSync_iff_of_stored (h : Stored subject db doc) :
    InSync subject db ↔ (webAuthnMethods doc.coerced).Perm (registeredMethods db subject) := by
  constructor
  · rintro ⟨doc', hdoc', hperm⟩
    rw [h.document] at hdoc'
    rw [ok.inj hdoc']
    exact hperm
  · exact fun hperm => ⟨doc.coerced, h.document, hperm⟩

theorem anchors_of_new (hread : faults 2 = none) (hsaved : faults 3 = none) (hnew : ¬Known db c)
    (hfree : ∀ doc, db.document subject = .ok doc →
      hasMethod doc (c.method subject).id = false) : Anchors subject db faults c where
  added _ _ := hnew
  replaced _ hfail := absurd hread hfail
  skipped hnot := absurd ⟨hsaved, fun _ => hfree⟩ hnot

/-- A minimal one if the document cannot be read. -/
def baseOf (subject : Bytes) (doc : Did.Document) (read : Option Err) : Did.Document :=
  if read = none then doc.coerced else minimalDocument subject

theorem afterRegistration_eq (hstored : Stored subject db doc) (env : Env)
    (faults : Faults) (c : Credential) :
    afterRegistration env subject faults db c
      = ((anchorIn (baseOf subject doc (faults 2)) (env.clock 2) subject (encodeB64 c.id)
          c.publicKey).run (fun n => faults (n + 3))
          (db.putWebAuthnCredential (storedCredential subject (env.clock 1) c))).2 := by
  have hdoc : (db.putWebAuthnCredential (storedCredential subject (env.clock 1) c)).document subject
      = .ok doc.coerced := hstored.document
  rw [afterRegistration, run_anchorWebAuthnKey, baseDocument, baseOf]
  cases faults 2 with
  | none =>
    rw [if_pos rfl, hdoc]
    rfl
  | some e =>
    rfl

theorem writes_iff (hstored : Stored subject db doc) :
    Writes subject db faults c ↔ faults 3 = none
      ∧ hasMethod (baseOf subject doc (faults 2)) (c.method subject).id = false := by
  unfold baseOf
  constructor
  · intro h
    refine ⟨h.saved, ?_⟩
    split
    · next hread => exact h.free hread doc.coerced hstored.document
    · rfl
  · rintro ⟨hsaved, h⟩
    refine ⟨hsaved, fun hread doc' hdoc' => ?_⟩
    rw [hstored.document] at hdoc'
    rw [if_pos hread, ok.inj hdoc'] at h
    exact h

theorem dated_anchored (hstored : Stored subject db doc) (read : Option Err)
    (vm : Did.VerificationMethod) : (anchored (baseOf subject doc read) vm).Dated := by
  unfold baseOf
  split
  · exact ⟨hstored.dated.created, hstored.dated.updated⟩
  · exact ⟨fun t ht => absurd ht (Option.not_mem_none t),
      fun t ht => absurd ht (Option.not_mem_none t)⟩

theorem id_anchored (hstored : Stored subject db doc) (read : Option Err)
    (vm : Did.VerificationMethod) : (anchored (baseOf subject doc read) vm).id = subject := by
  unfold baseOf
  split
  · exact hstored.id
  · rfl

theorem afterRegistration_of_not_writes (hstored : Stored subject db doc) (env : Env)
    (h : ¬Writes subject db faults c) :
    afterRegistration env subject faults db c
      = db.putWebAuthnCredential (storedCredential subject (env.clock 1) c) := by
  rw [writes_iff hstored, not_and] at h
  rw [afterRegistration_eq hstored]
  by_cases hhas : hasMethod (baseOf subject doc (faults 2)) (c.method subject).id
  · exact run_anchorIn_of_hasMethod hhas ..
  · refine (run_anchorIn hhas ..).trans ?_
    cases hsaved : faults 3 with
    | none => exact absurd (Bool.eq_false_iff.mpr hhas) (h hsaved)
    | some e => exact saveDocument_fails (dated_anchored hstored _ _) _ hsaved _

theorem afterRegistration_of_writes (hstored : Stored subject db doc) (env : Env)
    (h : Writes subject db faults c) :
    Stored subject (afterRegistration env subject faults db c)
        (anchored (baseOf subject doc (faults 2)) (c.method subject))
      ∧ (afterRegistration env subject faults db c).webAuthnCredentials
          = (db.putWebAuthnCredential
              (storedCredential subject (env.clock 1) c)).webAuthnCredentials := by
  obtain ⟨hsaved, hfree⟩ := (writes_iff hstored).mp h
  rw [afterRegistration_eq hstored, run_anchorIn (Bool.eq_false_iff.mp hfree)]
  exact stored_saveDocument (dated_anchored hstored _ _) (id_anchored hstored _ _)
    hstored.validUtf8 _ hsaved _

theorem methods_anchored (hstored : Stored subject db doc) (read : Option Err) (c : Credential) :
    webAuthnMethods (anchored (baseOf subject doc read) (c.method subject)).coerced
      = (if read = none then webAuthnMethods doc.coerced else []) ++ [c.method subject] := by
  have hvm := coerced_verificationMethod hstored.validUtf8 c.id c.publicKey
  unfold baseOf
  split
  · exact webAuthnMethods_anchored (verificationMethod_coerced_coerced doc) rfl hvm
  · exact webAuthnMethods_anchored rfl rfl hvm

theorem perm_append_iff {l l' m m' : List Did.VerificationMethod} (h : l.Perm l') :
    (l ++ m).Perm (l' ++ m') ↔ m.Perm m' :=
  ((h.symm.append_right m').congr_right _).trans (perm_append_left_iff l)

theorem sync_afterRegistration (hstored : Stored subject db doc)
    (hperm : (webAuthnMethods doc.coerced).Perm (registeredMethods db subject)) (env : Env)
    (faults : Faults) (c : Credential) :
    (∃ doc', Stored subject (afterRegistration env subject faults db c) doc')
      ∧ (InSync subject (afterRegistration env subject faults db c)
          ↔ Anchors subject db faults c) := by
  by_cases hwrites : Writes subject db faults c
  · obtain ⟨hafter, hcreds⟩ := afterRegistration_of_writes hstored env hwrites
    have hregistered : registeredMethods (afterRegistration env subject faults db c) subject
        = registeredMethods db subject ++ newMethods subject db c := by
      rw [← registeredMethods_put (env.clock 1), registeredMethods, hcreds]
      rfl
    refine ⟨⟨_, hafter⟩, ?_⟩
    rw [inSync_iff_of_stored hafter, methods_anchored hstored, hregistered]
    by_cases hread : faults 2 = none
    · rw [if_pos hread, perm_append_iff hperm]
      have hnew : [c.method subject].Perm (newMethods subject db c) ↔ ¬Known db c := by
        unfold Known newMethods
        split <;> simp_all
      exact hnew.trans ⟨fun hnew => ⟨fun _ _ => hnew, fun _ hfail => absurd hread hfail,
        fun hnot => absurd hwrites hnot⟩, fun h => h.added hwrites hread⟩
    · rw [if_neg hread, nil_append]
      rw [singleton_perm, newMethods]
      have hsole : [c.method subject] = registeredMethods db subject
          ++ (if db.webAuthnCredentials.find (encodeB64 c.id) = none then [c.method subject]
            else [])
          ↔ if db.webAuthnCredentials.find (encodeB64 c.id) = none
            then registeredMethods db subject = []
            else registeredMethods db subject = [c.method subject] := by
        split
        · exact eq_comm.trans append_left_eq_self
        · rw [append_nil, eq_comm]
      exact hsole.trans ⟨fun hsole => ⟨fun _ hok => absurd hok hread, fun _ _ => hsole,
        fun hnot => absurd hwrites hnot⟩, fun h => h.replaced hwrites hread⟩
  · have hafter : Stored subject
        (db.putWebAuthnCredential (storedCredential subject (env.clock 1) c)) doc :=
      ⟨hstored.dated, hstored.id, hstored.text⟩
    rw [afterRegistration_of_not_writes hstored env hwrites]
    refine ⟨⟨doc, hafter⟩, ?_⟩
    rw [inSync_iff_of_stored hafter, registeredMethods_put,
      ← append_nil (webAuthnMethods doc.coerced), perm_append_iff hperm]
    have hknown : List.Perm [] (newMethods subject db c) ↔ Known db c := by
      unfold Known newMethods
      split <;> simp_all
    exact hknown.trans ⟨fun hknown => ⟨fun h => absurd h hwrites, fun h => absurd h hwrites,
      fun _ => hknown⟩, fun h => h.skipped hwrites⟩

end Registration

/-! ## Requests -/

def Step.request : Step → Request
  | .registerBegin r => r
  | .registerFinish r _ _ => r
  | .delete r _ => r

def Call.bearer (c : Call) : Res Bytes :=
  srv.subjectFromBearer (param c.step.request.header "Authorization")

def Call.Own (subject : Bytes) (c : Call) : Prop :=
  ∀ bearer, c.bearer srv = .ok bearer → bearer = subject

def Call.registers (st : State S) (c : Call) : Option Credential :=
  match c.step with
  | .registerFinish _ cookie body => do
    let lib ← srv.webAuthn
    let subject ← (c.bearer srv).toOption
    let id ← cookie
    let entry ← st.regSessions.get id
    if c.env.clock 0 > entry.expiresAt then none
    else accepted lib subject entry.session body c.faults st.db
  | _ => none

def Call.deletes (st : State S) (c : Call) : Option WebAuthnCredential :=
  match c.step with
  | .delete _ credID => do
    let subject ← (c.bearer srv).toOption
    removed subject credID c.faults st.db
  | _ => none

structure InStep (srv : Server S) (subject : Bytes) (st : State S) (c : Call) : Prop where
  kept : c.deletes srv st = none
  anchored : ∀ cred, c.registers srv st = some cred → Anchors subject st.db c.faults cred

section Requests

variable {srv : Server S} {subject : Bytes} {st : State S}

theorem db_registerBegin : (next srv st ⟨env, faults, .registerBegin r⟩).db = st.db := by
  have hsame : (handleWebAuthnRegisterBegin srv env r).wp (fun _ db => db = st.db) st.db := by
    unfold handleWebAuthnRegisterBegin
    split
    · rfl
    · split
      · refine (wp_bind ..).mpr ((wp_select ..).mpr ⟨?_, fun e => rfl⟩)
        dsimp only
        split
        · rfl
        · rfl
        · rfl
      · rfl
  exact wp_run hsame faults

theorem db_registerFinish {env : Env} {faults : Faults} {r : Request}
    {cookie : Option Bytes} {body : Bytes}
    (hown : Call.Own srv subject ⟨env, faults, .registerFinish r cookie body⟩) :
    (next srv st ⟨env, faults, .registerFinish r cookie body⟩).db
      = (Call.registers srv st ⟨env, faults, .registerFinish r cookie body⟩).elim st.db
          (afterRegistration env subject faults st.db) := by
  show ((handleWebAuthnRegisterFinish srv env r cookie body st.regSessions).2.run faults
    st.db).2 = _
  unfold handleWebAuthnRegisterFinish Call.registers
  cases hlib : srv.webAuthn with
  | none => rfl
  | some lib =>
    have hbearer : Call.bearer srv ⟨env, faults, .registerFinish r cookie body⟩
        = srv.subjectFromBearer (param r.header "Authorization") := rfl
    simp only [hbearer, Option.bind_eq_bind, Option.bind_some]
    cases hsubject : srv.subjectFromBearer (param r.header "Authorization") with
    | err e => rfl
    | panics reason => rfl
    | ok bearer =>
      obtain rfl := hown bearer (hbearer.trans hsubject)
      cases cookie with
      | none => rfl
      | some id =>
        simp only [toOption_ok, Option.bind_some]
        cases hentry : st.regSessions.get id with
        | none => rfl
        | some entry =>
          simp only [Option.bind_some]
          split
          · rfl
          · exact run_finishRegistration ..

theorem db_delete (credID : Bytes) :
    (next srv st ⟨env, faults, .delete r credID⟩).db
      = (Call.deletes srv st ⟨env, faults, .delete r credID⟩).elim st.db fun _ =>
          { st.db with webAuthnCredentials := st.db.webAuthnCredentials.delete credID } := by
  show ((handleDeleteWebAuthnCredential srv r credID).run faults st.db).2 = _
  unfold handleDeleteWebAuthnCredential Call.deletes Call.bearer
  show _ = (((srv.subjectFromBearer (param r.header "Authorization")).toOption).bind fun subject =>
    removed subject credID faults st.db).elim _ _
  cases srv.subjectFromBearer (param r.header "Authorization") with
  | err e => rfl
  | panics reason => rfl
  | ok bearer => exact run_deleteCredentialOf bearer credID faults st.db

theorem not_inSync_delete {db : DB} {doc : Did.Document} (hstored : Stored subject db doc)
    (hperm : (webAuthnMethods doc.coerced).Perm (registeredMethods db subject))
    (hrow : db.webAuthnCredentials.find credID = some row) (hsubject : row.subjectDID = subject) :
    ¬InSync subject { db with webAuthnCredentials := db.webAuthnCredentials.delete credID } := by
  have hstored' : Stored subject
      { db with webAuthnCredentials := db.webAuthnCredentials.delete credID } doc :=
    ⟨hstored.dated, hstored.id, hstored.text⟩
  rw [inSync_iff_of_stored hstored']
  intro h
  have hlength := registeredMethods_delete hrow hsubject
  rw [← hperm.length_eq, h.length_eq] at hlength
  omega

theorem find_of_removed {faults : Faults} {db : DB}
    (h : removed subject credID faults db = some row) :
    db.webAuthnCredentials.find credID = some row ∧ row.subjectDID = subject := by
  unfold removed at h
  split at h
  · obtain ⟨hrow, hsubject⟩ := Option.filter_eq_some_iff.mp h
    exact ⟨hrow, of_decide_eq_true hsubject⟩
  · cases h

theorem sync_next (hkept : Kept subject st.db) {c : Call} (hown : c.Own srv subject) :
    (∃ doc, Stored subject (next srv st c).db doc)
      ∧ (InSync subject (next srv st c).db ↔ InStep srv subject st c) := by
  obtain ⟨doc, hstored, hperm⟩ := hkept
  have hin : InSync subject st.db := (inSync_iff_of_stored hstored).mpr hperm
  obtain ⟨env, faults, step⟩ := c
  cases step with
  | registerBegin r =>
    rw [db_registerBegin]
    exact ⟨⟨doc, hstored⟩, iff_of_true hin ⟨rfl, fun _ h => by cases h⟩⟩
  | registerFinish r cookie body =>
    rw [db_registerFinish hown]
    cases hregisters : Call.registers srv st ⟨env, faults, .registerFinish r cookie body⟩ with
    | none =>
      refine ⟨⟨doc, hstored⟩, iff_of_true hin ⟨rfl, fun cred h => ?_⟩⟩
      rw [hregisters] at h
      cases h
    | some cred =>
      obtain ⟨hafter, hsync⟩ := sync_afterRegistration hstored hperm env faults cred
      refine ⟨hafter, hsync.trans ⟨fun h => ⟨rfl, fun cred' hcred' => ?_⟩,
        fun h => h.anchored cred hregisters⟩⟩
      obtain rfl := Option.some.inj (hregisters.symm.trans hcred')
      exact h
  | delete r credID =>
    rw [db_delete]
    cases hdeletes : Call.deletes srv st ⟨env, faults, .delete r credID⟩ with
    | none => exact ⟨⟨doc, hstored⟩, iff_of_true hin ⟨hdeletes, fun _ h => by cases h⟩⟩
    | some row =>
      obtain ⟨bearer, hbearer, hremoved⟩ := Option.bind_eq_some_iff.mp hdeletes
      obtain rfl := hown bearer (toOption_eq_some.mp hbearer)
      obtain ⟨hrow, hsubject⟩ := find_of_removed hremoved
      refine ⟨⟨doc, hstored.dated, hstored.id, hstored.text⟩,
        iff_of_false (not_inSync_delete hstored hperm hrow hsubject) fun h => ?_⟩
      rw [h.kept] at hdeletes
      cases hdeletes

end Requests

/-- Document and credentials stay in step in a run exactly if nothing is deleted and every
registration anchors its own key. -/
theorem inSync_iff (subject : Bytes) (st : State S) (calls : List Call)
    (hstart : Kept subject st.db)
    (hown : EveryStep (next srv) (fun _ c => c.Own srv subject) st calls) :
    EveryState (next srv) (fun st => InSync subject st.db) st calls
      ↔ EveryStep (next srv) (InStep srv subject) st calls := by
  refine everyState_iff_everyStep (I := fun st => Kept subject st.db) (fun st h => h.inSync)
    (fun st c hkept hown hstep => ?_) (fun st c hkept hown hsync => ?_) hstart hown
  · obtain ⟨⟨doc, hstored⟩, hiff⟩ := sync_next hkept hown
    exact ⟨doc, hstored, (inSync_iff_of_stored hstored).mp (hiff.mpr hstep)⟩
  · exact (sync_next hkept hown).2.mp hsync

namespace AnchorSample

def credential (id : Bytes) : Credential := ⟨id, id, "none", [], 0, []⟩

def server : Server Unit where
  webAuthn := some ⟨fun _ _ => .ok (.null, ()), fun _ _ body => .ok (credential body)⟩
  subjectFromBearer header := .ok header

def did : Bytes := "did:key:alice"

def request : Request where
  query := .empty
  form := none
  header := Map.empty.set "Authorization" did
  basicAuth := none
  remoteAddr := []

def start : State Unit :=
  ⟨((saveDocument did (minimalDocument did).value 0).run (fun _ => none) .empty).2, .empty⟩

def call (step : Step) : Call := ⟨⟨.of fun _ _ => 7, fun _ => 0⟩, fun _ => none, step⟩

def begins : Call := call (.registerBegin request)

def finishes (id : String) : Call :=
  call (.registerFinish request (some (encodeHex (List.replicate 16 7))) (str id))

def deletes (id : String) : Call := call (.delete request (encodeB64 (str id)))

def succeeds (st : State Unit) (c : Call) : Bool :=
  match (c.run server st).1.response with
  | .json 200 _ => true
  | .json 201 _ => true
  | .text 204 _ => true
  | _ => false

def documentMethods (st : State Unit) : Option (List Did.VerificationMethod) :=
  (st.db.document did).toOption.map webAuthnMethods

theorem kept_start : Kept did start.db :=
  ⟨minimalDocument did, ⟨⟨fun t ht => absurd ht (Option.not_mem_none t),
    fun t ht => absurd ht (Option.not_mem_none t)⟩, by decide, by decide +kernel⟩,
    List.Perm.refl []⟩

end AnchorSample

open AnchorSample in
theorem inSync_registered :
    Kept did start.db
      ∧ EveryStep (next server) (fun _ c => c.Own server did) start [begins, finishes "passkey-1"]
      ∧ EveryState (next server) (fun st => InSync did st.db) start
          [begins, finishes "passkey-1"] := by
  have hown : EveryStep (next server) (fun _ c => c.Own server did) start
      [begins, finishes "passkey-1"] :=
    ⟨fun _ h => (ok.inj h).symm, fun _ h => (ok.inj h).symm, trivial⟩
  have hcred : (finishes "passkey-1").registers server (next server start begins)
      = some (credential "passkey-1") := by decide
  have hmethod : ((next server start begins).db.document did).toOption.map
      (hasMethod · ((credential "passkey-1").method did).id) = some false := by decide +kernel
  refine ⟨kept_start, hown, (inSync_iff server did start _ kept_start hown).mpr
    ⟨⟨rfl, fun _ h => by cases h⟩, ⟨rfl, fun cred h => ?_⟩, trivial⟩⟩
  obtain rfl := Option.some.inj (hcred.symm.trans h)
  refine anchors_of_new rfl rfl ?_ fun doc hdoc => ?_
  · exact not_not.mpr (by decide)
  · rw [hdoc] at hmethod
    exact Option.some.inj hmethod

open AnchorSample in
/-- A deleted passkey stays in the document, and of two whose IDs begin alike only one gets there.
-/
theorem anchors_out_of_sync :
    (EveryStep (next server) (fun st c => succeeds st c = true) start
        [begins, finishes "passkey-1", deletes "passkey-1"]
      ∧ documentMethods ([begins, finishes "passkey-1", deletes "passkey-1"].foldl (next server)
          start) = some [(credential "passkey-1").method did]
      ∧ registeredMethods ([begins, finishes "passkey-1", deletes "passkey-1"].foldl (next server)
          start).db did = [])
    ∧ (EveryStep (next server) (fun st c => succeeds st c = true) start
        [begins, finishes "passkey-1", begins, finishes "passkey-2"]
      ∧ documentMethods ([begins, finishes "passkey-1", begins, finishes "passkey-2"].foldl
          (next server) start) = some [(credential "passkey-1").method did]
      ∧ registeredMethods ([begins, finishes "passkey-1", begins, finishes "passkey-2"].foldl
          (next server) start).db did
          = [(credential "passkey-1").method did, (credential "passkey-2").method did])
    ∧ ¬EveryState (next server) (fun st => InSync did st.db) start
        [begins, finishes "passkey-1", deletes "passkey-1"] := by
  have hdocument : documentMethods ([begins, finishes "passkey-1", deletes "passkey-1"].foldl
      (next server) start) = some [(credential "passkey-1").method did] := by decide +kernel
  have hregistered : registeredMethods ([begins, finishes "passkey-1",
      deletes "passkey-1"].foldl (next server) start).db did = [] := by decide +kernel
  refine ⟨⟨by decide +kernel, hdocument, hregistered⟩, by decide +kernel, fun h => ?_⟩
  obtain ⟨doc, hdoc, hperm⟩ := everyState_last h
  rw [documentMethods, hdoc] at hdocument
  rw [hregistered, Option.some.inj hdocument] at hperm
  exact cons_ne_nil _ _ hperm.eq_nil

end TptIdentity.WebAuthn
