import TptIdentity.VcCredential

/-!
# Bootstrap credentials

`maybeIssueBootstrapVC` looks for the schema ID as it was spelled, while `Issue` writes the
versioned one. One credential per schema is issued exactly if each call that could repeat one
finds it under its spelling (`unrepeated_iff_checked`).
-/

namespace TptIdentity.Vc

open Go Store List

def credentialsOf (subjectDID : Bytes) (db : DB) : Res (List VerifiableCredential) :=
  ((db.credentials.rows.filter fun row => row.subjectDID = subjectDID).insertionSort
    fun a b => b.validFrom ≤ a.validFrom).mapM fun row =>
      VerifiableCredential.unmarshal row.credential

def alreadyIssued (schemaID : Bytes) : Res (List VerifiableCredential) → Bool
  | .ok existing => existing.any fun c => c.credentialSchema.any fun s => s.id = schemaID
  | _ => false

structure Issuing where
  crypto : Crypto
  schemas : Schemas
  issuer : Bytes
  signingKey : Bytes
  signingKeyID : Bytes

structure BootstrapCall where
  env : Oidc.Env
  faults : Faults
  subjectDID : Bytes
  schemaID : Bytes
  claims : Option (Map Bytes)

namespace BootstrapCall

variable (srv : Issuing) (c : BootstrapCall)

def options (claims : Map Bytes) : IssueOptions where
  issuerDID := srv.issuer
  issuerKey := srv.signingKey
  verificationMethodID := srv.signingKeyID
  subjectDID := c.subjectDID
  schemaID := c.schemaID
  claims
  validFor := 8760 * 3600 * 1000000000
  statusListCredential := []
  statusListIndex := 0

def issued (claims : Map Bytes) : Option VerifiableCredential :=
  (issue srv.crypto srv.schemas c.env (c.options srv claims)).toOption

def issueMissing (claims : Map Bytes) (existing : Res (List VerifiableCredential)) :
    Proc DB (Option VerifiableCredential) :=
  if alreadyIssued c.schemaID existing then return none
  else
    match c.issued srv claims with
    | none => return none
    | some cred => do
      let saved ← saveCredential cred
      return if saved = .ok () then some cred else none

/-- It returns the credential that it publishes `credential.issued` for. -/
def maybeIssueBootstrapVC : Proc DB (Option VerifiableCredential) :=
  match c.claims with
  | none => return none
  | some claims => .select (credentialsOf c.subjectDID) >>= c.issueMissing srv claims

def finds (db : DB) : Bool :=
  (c.faults 0).isNone && alreadyIssued c.schemaID (credentialsOf c.subjectDID db)

/-- Without the check, the call would issue and save the credential. -/
def Offers (db : DB) (cred : VerifiableCredential) : Prop :=
  c.claims.bind (c.issued srv) = some cred
    ∧ ((saveCredential cred).run (fun n => c.faults (n + 1)) db).1 = .ok ()

end BootstrapCall

structure Bootstrapped where
  db : DB
  issued : List VerifiableCredential

namespace Bootstrapped

def next (srv : Issuing) (s : Bootstrapped) (c : BootstrapCall) : Bootstrapped :=
  let r := (c.maybeIssueBootstrapVC srv).run c.faults s.db
  ⟨r.2, s.issued ++ r.1.toList⟩

def stored (s : Bootstrapped) : List VerifiableCredential :=
  s.issued.filter fun c => (s.db.credentials.find c.id).isSome

def SameSchema (a b : VerifiableCredential) : Prop :=
  a.credentialSubject.id = b.credentialSubject.id
    ∧ a.credentialSchema.map CredentialSchema.id = b.credentialSchema.map CredentialSchema.id
deriving Decidable

def Unrepeated (s : Bootstrapped) : Prop := s.stored.Pairwise fun a b => ¬SameSchema a b
deriving Decidable

/-- The duplicate check finds a credential whenever the call would repeat one. -/
def Checked (srv : Issuing) (s : Bootstrapped) (c : BootstrapCall) : Prop :=
  ∀ cred, c.Offers srv s.db cred → (∃ a ∈ s.stored, SameSchema a cred) → c.finds s.db

variable {srv : Issuing} {s : Bootstrapped} {c : BootstrapCall} {db : DB}

theorem find_saveCredential (cred : VerifiableCredential) (faults : Faults) (db : DB) :
    (∀ id, (db.credentials.find id).isSome →
      (((saveCredential cred).run faults db).2.credentials.find id).isSome)
    ∧ (((saveCredential cred).run faults db).1 = .ok () →
      (((saveCredential cred).run faults db).2.credentials.find cred.id).isSome) := by
  have hfailed : ∀ {r : Res Unit}, r ≠ .ok () →
      (∀ id, (db.credentials.find id).isSome → (db.credentials.find id).isSome)
      ∧ (r = .ok () → (db.credentials.find cred.id).isSome) :=
    fun hr => ⟨fun _ h => h, fun h => absurd h hr⟩
  unfold saveCredential
  split
  · rw [Proc.run_query]
    split
    · refine ⟨fun id h => ?_, fun h => ?_⟩
      · obtain ⟨row, hrow⟩ := Option.isSome_iff_exists.mp h
        exact Option.isSome_iff_exists.mpr ⟨row, Table.find_insert_of_find hrow _⟩
      · exact Option.isSome_iff_exists.mpr ⟨_, Table.find_insert h⟩
    · exact hfailed (r := .err _) (by simp)
  · exact hfailed (r := .err _) (by simp)
  · exact hfailed (r := .panics _) (by simp)

def outcome (found : Bool) (faults : Faults) (db : DB) :
    Option VerifiableCredential → Option VerifiableCredential × DB
  | none => (none, db)
  | some cred =>
    if found then (none, db)
    else
      let r := (saveCredential cred).run faults db
      (if r.1 = .ok () then some cred else none, r.2)

theorem run_issueMissing (claims : Map Bytes) (existing : Res (List VerifiableCredential))
    (faults : Faults) :
    (c.issueMissing srv claims existing).run faults db
      = outcome (alreadyIssued c.schemaID existing) faults db (c.issued srv claims) := by
  unfold BootstrapCall.issueMissing outcome
  split
  · split
    · rfl
    · rfl
  · split
    · rfl
    · exact Proc.run_bind_pure ..

theorem run_maybeIssueBootstrapVC :
    (c.maybeIssueBootstrapVC srv).run c.faults db
      = outcome (c.finds db) (fun n => c.faults (n + 1)) db (c.claims.bind (c.issued srv)) := by
  unfold BootstrapCall.maybeIssueBootstrapVC BootstrapCall.finds
  split
  · next hclaims =>
    rw [hclaims]
    rfl
  · next claims hclaims =>
    rw [hclaims, Option.bind_some]
    refine (Proc.run_query_bind ..).trans ?_
    cases hfaults : c.faults 0 with
    | none => exact run_issueMissing ..
    | some e => exact run_issueMissing ..

theorem next_cases (srv : Issuing) (s : Bootstrapped) (c : BootstrapCall) :
    (∀ id, (s.db.credentials.find id).isSome → ((s.next srv c).db.credentials.find id).isSome)
      ∧ ((s.next srv c).issued = s.issued ∧ (∀ cred, c.Offers srv s.db cred → c.finds s.db)
        ∨ ∃ cred, (s.next srv c).issued = s.issued ++ [cred] ∧ c.Offers srv s.db cred
          ∧ c.finds s.db = false ∧ ((s.next srv c).db.credentials.find cred.id).isSome) := by
  unfold next BootstrapCall.Offers
  rw [run_maybeIssueBootstrapVC]
  cases c.claims.bind (c.issued srv) with
  | none => exact ⟨fun _ h => h, .inl ⟨append_nil _, fun cred h => by cases h.1⟩⟩
  | some cred =>
    obtain ⟨hkeep, hsaved⟩ := find_saveCredential cred (fun n => c.faults (n + 1)) s.db
    cases hfinds : c.finds s.db with
    | true => exact ⟨fun _ h => h, .inl ⟨append_nil _, fun _ _ => rfl⟩⟩
    | false =>
      refine ⟨hkeep, ?_⟩
      simp only [outcome, Bool.false_eq_true, if_false]
      split
      · next hok => exact .inr ⟨cred, rfl, ⟨rfl, hok⟩, trivial, hsaved hok⟩
      · next hno =>
        refine .inl ⟨append_nil _, fun cred' h => ?_⟩
        obtain ⟨heq, hok⟩ := h
        cases heq
        exact absurd hok hno

def Kept (s : Bootstrapped) : Prop := ∀ a ∈ s.issued, (s.db.credentials.find a.id).isSome

theorem Kept.stored_eq (h : s.Kept) : s.stored = s.issued := List.filter_eq_self.mpr h

theorem Kept.next (h : s.Kept) : (s.next srv c).Kept := by
  obtain ⟨hkeep, ⟨hissued, -⟩ | ⟨cred, hissued, -, -, hcred⟩⟩ := next_cases srv s c
  · rw [Kept, hissued]
    exact fun a ha => hkeep _ (h a ha)
  · rw [Kept, hissued, forall_mem_append, List.forall_mem_singleton]
    exact ⟨fun a ha => hkeep _ (h a ha), hcred⟩

theorem unrepeated_next_iff (h : s.Kept) (hs : s.Unrepeated) :
    (s.next srv c).Unrepeated ↔ Checked srv s c := by
  unfold Unrepeated Checked at *
  rw [h.next.stored_eq]
  rw [h.stored_eq] at hs ⊢
  obtain ⟨-, ⟨hissued, hfinds⟩ | ⟨cred, hissued, hoffers, hfinds, -⟩⟩ := next_cases srv s c
  · rw [hissued]
    exact ⟨fun _ cred hcred _ => hfinds cred hcred, fun _ => hs⟩
  · rw [hissued, pairwise_append, hfinds]
    constructor
    · rintro ⟨-, -, hne⟩ cred' hoffers' ⟨a, ha, hsame⟩
      obtain rfl := Option.some.inj (hoffers.1.symm.trans hoffers'.1)
      exact absurd hsame (hne a ha _ (mem_singleton_self _))
    · intro hchecked
      refine ⟨hs, pairwise_singleton .., fun a ha b hb hsame => ?_⟩
      obtain rfl := List.mem_singleton.mp hb
      cases hchecked b hoffers ⟨a, ha, hsame⟩

/-- A schema is issued once in a run exactly if each further call finds the stored credential under
its own spelling. -/
theorem unrepeated_iff_checked (srv : Issuing) (db : DB) (calls : List BootstrapCall) :
    EveryState (next srv) Unrepeated ⟨db, []⟩ calls
      ↔ EveryStep (next srv) (Checked srv) ⟨db, []⟩ calls := by
  refine everyState_iff_everyStep (I := fun s => Kept s ∧ Unrepeated s) (F := fun _ _ => True)
    (fun _ h => h.2) (fun s c h _ hP => ⟨h.1.next, (unrepeated_next_iff h.1 h.2).mpr hP⟩)
    (fun s c h _ hQ => (unrepeated_next_iff h.1 h.2).mp hQ) ⟨?_, ?_⟩
    (everyStep_of_forall fun _ _ => trivial)
  · exact fun a ha => absurd ha not_mem_nil
  · exact Pairwise.nil

namespace Sample

def server : Issuing where
  crypto := .standIn
  schemas := ⟨Map.empty.set "s" ⟨"s", 1, "c", false, []⟩, fun _ _ => .ok ()⟩
  issuer := "did:web:i"
  signingKey := List.replicate 64 1
  signingKeyID := "k"

def login (n : UInt8) : BootstrapCall where
  env := ⟨.of fun _ _ => n, fun _ => 0⟩
  faults _ := none
  subjectDID := "did:key:z1"
  schemaID := "s"
  claims := some Map.empty

end Sample

open Bootstrapped.Sample

theorem second_login_repeats :
    ¬EveryState (next server) Unrepeated ⟨.empty, []⟩ [login 1, login 2] := by
  decide +kernel

end Bootstrapped

end TptIdentity.Vc
