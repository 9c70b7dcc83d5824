import TptIdentity.SessionRuns

/-!
# What a failed login leaves behind

`FindOrCreate` writes three times without a transaction. A failed call has changed nothing
exactly when the failing statement is not the second or third of these, or the rows before it
were there already (`findOrCreate_traceless_iff`).
-/

namespace TptIdentity.Bridge

open Go Store Oidc Proc

/-! ## Traces -/

structure Unchanged (db db' : DB) : Prop where
  identities : db'.identities = db.identities
  documents : db'.documents = db.documents
  externalLinks : db'.externalLinks = db.externalLinks

/-- If the call returned an error, it has changed nothing. -/
def Traceless {α : Type} (db : DB) (r : Res α × DB) : Prop := ∀ e, r.1 = .err e → Unchanged db r.2

/-! ## Conditions -/

def LooksNew (ext : ExternalIdentity) (db : DB) (faults : Faults) : Prop :=
  ∃ e, ((getExternalLink ext.provider ext.externalID).run faults db).1 = .err e
    ∧ isNotFound e = true

def newIdentity (did : Bytes) (now : Int) : Identity :=
  ⟨did, "key", [], [], "user", [], now, now⟩

def IdentityStored (db : DB) (did : Bytes) (now : Int) : Prop :=
  ∃ old, db.identities.find did = some old ∧ old.merge (newIdentity did now) = old

def DocumentStored (db : DB) (did : Bytes) (doc : Value) (now : Int) : Prop :=
  ∃ old, db.documents.find did = some old ∧ old.merge ⟨did, doc.text, now⟩ = old

variable {now : Int} {db' : DB} (srv : Server) (env : Env)

/-- Neither the document nor the link fails, or what was written was there before. -/
def NoneAfterIdentity (ext : ExternalIdentity) (db : DB) (faults : Faults) : Prop :=
  ∀ did doc, newKeyDID srv env.rand = .ok (did, doc) → LooksNew ext db faults →
    faults 1 = none →
      (faults 2 ≠ none → IdentityStored db did (env.clock 0))
        ∧ (faults 2 = none → faults 3 ≠ none →
          IdentityStored db did (env.clock 0) ∧ DocumentStored db did doc (env.clock 1))

/-! ## Runs -/

section Runs

variable {srv : Server} {env : Env} {ext : ExternalIdentity} {db : DB}

def withIdentity (db : DB) (did : Bytes) (now : Int) : DB :=
  { db with
    identities := db.identities.upsert Identity.merge Identity.did_merge (newIdentity did now) }

def withDocument (db : DB) (did : Bytes) (doc : Value) (now : Int) : DB :=
  { db with
    documents := db.documents.upsert DocumentRow.merge DocumentRow.did_merge ⟨did, doc.text, now⟩ }

variable {did : Bytes} {doc : Value}

theorem supported_newKeyDID {rand : Rand} (h : newKeyDID srv rand = .ok (did, doc)) :
    doc.supported := by
  obtain ⟨seed, -, h⟩ := Res.bind_eq_ok.mp h
  obtain ⟨-, h⟩ := Res.ite_err_eq_ok.mp (Res.wrapErr_eq_ok.mp h)
  obtain ⟨did', -, h⟩ := Res.bind_eq_ok.mp h
  cases h
  rfl

theorem run_createIdentity_bind {β : Type} (hkey : newKeyDID srv env.rand = .ok (did, doc))
    (k : Res Bytes → Proc DB β) (faults : Faults) :
    (createIdentity srv env >>= k).run faults db
      = match faults 0, faults 1 with
        | some e, _ => (k (.err (.wrap "bridge: save identity: %w" [] e))).run
            (fun n => faults (n + 1)) db
        | none, some e => (k (.err (.wrap "bridge: save did document: %w" [] e))).run
            (fun n => faults (n + 2)) (withIdentity db did (env.clock 0))
        | none, none => (k (.ok did)).run (fun n => faults (n + 2))
            (withDocument (withIdentity db did (env.clock 0)) did doc (env.clock 1)) := by
  have hmarshal := marshal_eq_ok (supported_newKeyDID hkey)
  simp only [createIdentity, hkey, saveIdentity, saveDocument, hmarshal, exec, bind_assoc,
    run_query_bind]
  cases faults 0 with
  | some e => rfl
  | none =>
    cases faults 1 with
    | some e => rfl
    | none => rfl

def linkCreated (env : Env) (ext : ExternalIdentity) :
    Res Bytes → Proc DB (Res (Bytes × Bool))
  | .ok subjectDID => do
    let saved ← saveExternalLink
      ⟨subjectDID, ext.provider, ext.externalID, env.clock 2, env.clock 2⟩
    return (saved.wrapErr "bridge: save external link: %w" []).bind fun _ =>
      .ok (subjectDID, true)
  | .err e => return .err e
  | .panics reason => return .panics reason

theorem run_getExternalLink_bind {β : Type} (k : Res ExternalProviderLink → Proc DB β)
    (faults : Faults) :
    (getExternalLink ext.provider ext.externalID >>= k).run faults db
      = (k ((getExternalLink ext.provider ext.externalID).run faults db).1).run
          (fun n => faults (n + 1)) db := by
  have htakes : (getExternalLink ext.provider ext.externalID).Takes 1 :=
    ⟨fun _ => rfl, fun _ => rfl⟩
  have hreads : (getExternalLink ext.provider ext.externalID).Within (· = ·) :=
    within_bind (within_select (fun _ => rfl) _) fun _ => trivial
  rw [run_bind_of_takes k htakes, ← wp_run (hreads.wp (fun _ => rfl) Eq.trans db) faults]

variable {faults : Faults}

theorem run_findOrCreate_new (hlook : LooksNew ext db faults) :
    (findOrCreate srv env ext).run faults db
      = (createIdentity srv env >>= linkCreated env ext).run (fun n => faults (n + 1)) db := by
  obtain ⟨e, hlookup, hmissing⟩ := hlook
  rw [findOrCreate, run_getExternalLink_bind, hlookup]
  simp only [hmissing, if_true]
  rfl

/-! ## Which failures leave a trace -/

theorem Unchanged.refl (db : DB) : Unchanged db db := ⟨rfl, rfl, rfl⟩

theorem unchanged_withIdentity :
    Unchanged db (withIdentity db did now) ↔ IdentityStored db did now := by
  have hupsert := Table.upsert_eq_self_iff (t := db.identities) Identity.did_merge
    (r := newIdentity did now)
  exact ⟨fun h => hupsert.mp h.identities, fun h => ⟨hupsert.mpr h, rfl, rfl⟩⟩

theorem unchanged_withDocument {now' : Int} :
    Unchanged db (withDocument (withIdentity db did now) did doc now')
      ↔ IdentityStored db did now ∧ DocumentStored db did doc now' := by
  have hupsert := Table.upsert_eq_self_iff (t := db.documents) DocumentRow.did_merge
    (r := ⟨did, doc.text, now'⟩)
  have hidentity : Unchanged db (withIdentity db did now) ↔ IdentityStored db did now :=
    unchanged_withIdentity
  constructor
  · intro h
    exact ⟨hidentity.mp ⟨h.identities, rfl, rfl⟩, hupsert.mp h.documents⟩
  · rintro ⟨hid, hdoc⟩
    exact ⟨(hidentity.mpr hid).identities, hupsert.mpr hdoc, rfl⟩

theorem traceless_err {α : Type} {e : Err} :
    Traceless (α := α) db (.err e, db') ↔ Unchanged db db' :=
  ⟨fun h => h e rfl, fun h _ _ => h⟩

theorem traceless_of_ne {α : Type} {r : Res α} (h : ∀ e, r ≠ .err e) :
    Traceless db (r, db') := fun e he => absurd he (h e)

theorem traceless_linkCreated :
    Traceless db ((linkCreated env ext (.ok did)).run faults db')
      ↔ (faults 0 ≠ none → Unchanged db db') := by
  simp only [linkCreated, saveExternalLink, exec, run_query_bind]
  cases faults 0 with
  | none => exact iff_of_true (traceless_of_ne fun e he => by cases he) fun h => absurd rfl h
  | some e => exact traceless_err.trans ⟨fun h _ => h, fun h => h (Option.some_ne_none e)⟩

theorem traceless_create (hkey : newKeyDID srv env.rand = .ok (did, doc)) (faults : Faults) :
    Traceless db ((createIdentity srv env >>= linkCreated env ext).run faults db)
      ↔ (faults 0 = none → (faults 1 ≠ none → IdentityStored db did (env.clock 0))
            ∧ (faults 1 = none → faults 2 ≠ none →
              IdentityStored db did (env.clock 0) ∧ DocumentStored db did doc (env.clock 1))) := by
  rw [run_createIdentity_bind hkey]
  cases h0 : faults 0 with
  | some e => exact iff_of_true (traceless_err.mpr (.refl db)) fun h => by cases h
  | none =>
    cases h1 : faults 1 with
    | some e =>
      refine (traceless_err.trans unchanged_withIdentity).trans ?_
      exact ⟨fun h _ => ⟨fun _ => h, fun hnone => by cases hnone⟩,
        fun h => (h rfl).1 (Option.some_ne_none e)⟩
    | none =>
      rw [traceless_linkCreated, unchanged_withDocument]
      exact ⟨fun h _ => ⟨fun hne => absurd rfl hne, fun _ => h⟩, fun h => (h rfl).2 rfl⟩

theorem traceless_of_not_looksNew (hlook : ¬LooksNew ext db faults) :
    Traceless db ((findOrCreate srv env ext).run faults db) := by
  rw [findOrCreate, run_getExternalLink_bind]
  cases hlookup : ((getExternalLink ext.provider ext.externalID).run faults db).1 with
  | ok link =>
    simp only [saveExternalLink, exec, run_query_bind]
    cases faults 1 with
    | none => exact traceless_of_ne fun e he => by cases he
    | some e => exact traceless_of_ne fun e he => by cases he
  | err e =>
    have hmissing : ¬isNotFound e := fun h => hlook ⟨e, hlookup, h⟩
    simp only [if_neg hmissing]
    exact traceless_err.mpr (.refl db)
  | panics reason => exact traceless_of_ne fun e he => by cases he

end Runs

/-- A failed login leaves no trace exactly if no call fails after the identity was written. -/
theorem findOrCreate_traceless_iff (ext : ExternalIdentity) (db : DB) (faults : Faults) :
    Traceless db ((findOrCreate srv env ext).run faults db)
      ↔ NoneAfterIdentity srv env ext db faults := by
  by_cases hlook : LooksNew ext db faults
  · rw [run_findOrCreate_new hlook]
    cases hkey : newKeyDID srv env.rand with
    | ok created =>
      obtain ⟨did, doc⟩ := created
      rw [traceless_create hkey]
      constructor
      · intro h did' doc' hkey' _
        obtain ⟨rfl, rfl⟩ := Prod.mk.inj (Res.ok.inj (hkey.symm.trans hkey'))
        exact h
      · intro h
        exact h did doc hkey hlook
    | err e =>
      have hrun : (createIdentity srv env >>= linkCreated env ext).run
          (fun n => faults (n + 1)) db = (.err e, db) := by
        simp only [createIdentity, hkey]
        rfl
      rw [hrun]
      refine iff_of_true (traceless_err.mpr (.refl db)) fun did doc hok => ?_
      rw [hkey] at hok
      cases hok
    | panics reason =>
      have hrun : (createIdentity srv env >>= linkCreated env ext).run
          (fun n => faults (n + 1)) db = (.panics reason, db) := by
        simp only [createIdentity, hkey]
        rfl
      rw [hrun]
      refine iff_of_true (traceless_of_ne fun e he => by cases he) fun did doc hok => ?_
      rw [hkey] at hok
      cases hok
  · exact iff_of_true (traceless_of_not_looksNew hlook) fun _ _ _ h => absurd h hlook

/-- The link cannot be stored: the call fails, and the new identity stays. -/
theorem findOrCreate_leaves_identity :
    ¬Traceless .empty ((findOrCreate Sample.server ⟨.of fun _ _ => 7, fun _ => 0⟩
      ⟨"google", "bob", .empty, false⟩).run
        (fun n => if n = 3 then some (.new "disk full" []) else none) .empty) := by
  intro h
  have hunchanged := h (.wrap "bridge: save external link: %w" [] (.new "disk full" [])) (by decide)
  have hrows := congrArg (fun t => t.rows.length) hunchanged.identities
  exact absurd hrows (by decide)

end TptIdentity.Bridge
