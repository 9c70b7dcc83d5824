import TptIdentity.SessionBinding

/-!
# The subjects of logins

A login starts sessions for the subject that an external identity is linked to, or the one drawn
for it (`wp_finishBridgeAuth`). A session ID that is drawn again counts too, since the row keeps
its subject.
-/

namespace TptIdentity.Bridge

open Go Store Oidc Proc

def LinkFor (S : Bytes → Prop) (db : DB) (provider externalID : Bytes) : Prop :=
  ∀ l, db.externalLinks.find (provider, externalID) = some l → S l.subjectDID

def NewFor (S : Bytes → Prop) (srv : Server) (env : Env) : Prop :=
  ∀ did doc, newKeyDID srv env.rand = .ok (did, doc) → S did

structure LoginFor (S : Bytes → Prop) (srv : Server) (env : Env) (db : DB)
    (provider externalID : Bytes) : Prop where
  drawn : NewFor S srv env
  link : LinkFor S db provider externalID
  session : SessionFor S db (finishID env)

section Logins

variable {S : Bytes → Prop} {srv : Server} {env : Env} {db : DB} {provider externalID : Bytes}

theorem LinkFor.of_eq {db₁ : DB} (h : LinkFor S db provider externalID)
    (hlinks : db₁.externalLinks = db.externalLinks) : LinkFor S db₁ provider externalID := by
  unfold LinkFor
  rwa [hlinks]

theorem LoginFor.of_keeps {db₁ : DB} (h : LoginFor S srv env db provider externalID)
    (hkeeps : Keeps db db₁) (hlinks : db₁.externalLinks = db.externalLinks) :
    LoginFor S srv env db₁ provider externalID :=
  ⟨h.drawn, h.link.of_eq hlinks, h.session.of_keeps hkeeps⟩

theorem wp_createIdentity (hnew : NewFor S srv env) (hlink : LinkFor S db provider externalID) :
    (createIdentity srv env).wp
      (fun res db' => (∀ did, res = .ok did → S did) ∧ LinkFor S db' provider externalID) db := by
  unfold createIdentity
  split
  · next did doc hdid =>
    have hsave : ∀ (did : Bytes) (doc : Value) (now : Int) (db₁ : DB),
        LinkFor S db₁ provider externalID → (saveDocument did doc now).wp
          (fun _ db' => LinkFor S db' provider externalID) db₁ := by
      intro did doc now db₁ hlink
      unfold saveDocument
      split
      · exact ⟨hlink, fun _ => hlink⟩
      · exact hlink
      · exact hlink
    have hnamed : ∀ (res : Res Unit) (did' : Bytes),
        (res.bind fun _ => .ok did) = .ok did' → S did' := by
      intro res did' hres
      obtain ⟨_, -, hok⟩ := Res.bind_eq_ok.mp hres
      rw [← Res.ok.inj hok]
      exact hnew did doc hdid
    refine (wp_bind ..).mpr ⟨?_, fun e => ⟨hnamed _, hlink⟩⟩
    exact wp_seq (hsave _ _ _ _ hlink) fun saved db' h => ⟨hnamed _, h⟩
  · exact ⟨(fun did hok => by cases hok), hlink⟩
  · exact ⟨(fun did hok => by cases hok), hlink⟩

theorem wp_getExternalLink (provider externalID : Bytes) :
    (getExternalLink provider externalID).wp (fun res db' => db' = db
        ∧ ∀ l, res = .ok l → db.externalLinks.find (provider, externalID) = some l) db := by
  refine (wp_lookup ..).mpr ⟨⟨rfl, fun l hok => ?_⟩, fun e => ⟨rfl, fun l hok => by cases hok⟩⟩
  cases hfind : db.externalLinks.find (provider, externalID) with
  | none =>
    rw [hfind] at hok
    cases hok
  | some l' =>
    rw [hfind] at hok
    exact congrArg some (Res.ok.inj hok)

theorem linkFor_saveExternalLink {l : ExternalProviderLink} (hsubject : S l.subjectDID)
    (hlink : LinkFor S db l.provider l.externalID) :
    (saveExternalLink l).wp (fun _ db' => LinkFor S db' l.provider l.externalID) db := by
  refine ⟨fun row hrow => ?_, fun _ => hlink⟩
  have hfind : (db.externalLinks.upsert ExternalProviderLink.merge
      ExternalProviderLink.key_merge l).find l.key = some row := hrow
  rw [Table.find_upsert, if_pos rfl] at hfind
  rw [← Option.some.inj hfind]
  cases db.externalLinks.find l.key with
  | none => exact hsubject
  | some old => exact hsubject

variable {ext : ExternalIdentity}

theorem linkFor_findOrCreate (hnew : NewFor S srv env)
    (hlink : LinkFor S db ext.provider ext.externalID) :
    (findOrCreate srv env ext).wp (fun res db' => (∀ did new, res = .ok (did, new) → S did)
        ∧ LinkFor S db' ext.provider ext.externalID) db := by
  refine wp_seq (wp_getExternalLink ..) fun res db' h => ?_
  obtain ⟨rfl, hfound⟩ := h
  split
  · next l =>
    have hsubject := hlink l (hfound l rfl)
    have hkey : l.key = (ext.provider, ext.externalID) := Table.key_of_find (hfound l rfl)
    obtain ⟨hprovider, hexternalID⟩ := Prod.mk.inj hkey
    rw [← hprovider, ← hexternalID] at hlink ⊢
    refine (wp_bind ..).mpr (wp_mono (fun _ db' h => ⟨fun did new hok => ?_, h⟩)
      (linkFor_saveExternalLink (l := { l with lastUsedAt := env.clock 0 }) hsubject hlink))
    obtain ⟨rfl, -⟩ := Prod.mk.inj (Res.ok.inj hok)
    exact hsubject
  · refine wp_ite (fun _ => ?_) fun _ => ⟨(fun did new hok => by cases hok), hlink⟩
    refine wp_seq (wp_createIdentity hnew hlink) fun res db' h => ?_
    obtain ⟨hsubject, hlink⟩ := h
    split
    · next did =>
      refine (wp_bind ..).mpr (wp_mono (fun _ db' h => ⟨fun did' new hok => ?_, h⟩)
        (linkFor_saveExternalLink (l := ⟨did, ext.provider, ext.externalID, _, _⟩)
          (hsubject did rfl) hlink))
      obtain ⟨_, -, hok⟩ := Res.bind_eq_ok.mp hok
      obtain ⟨rfl, -⟩ := Prod.mk.inj (Res.ok.inj hok)
      exact hsubject did rfl
    · exact ⟨(fun did new hok => by cases hok), hlink⟩
    · exact ⟨(fun did new hok => by cases hok), hlink⟩
  · exact ⟨(fun did new hok => by cases hok), hlink⟩

theorem wp_finishBridgeAuth (r : Request) (st : BridgeState)
    (hlogin : LoginFor S srv env db ext.provider ext.externalID) :
    (finishBridgeAuth srv env r ext st).wp (LoginOutcome S db st (finishID env)) db := by
  refine wp_ite (fun _ => ?_) fun _ => ?_
  · refine wp_bind_quiet (quiet_linkIdentity ..) fun res db₁ hkeeps => ?_
    split <;> exact .kept hkeeps rfl
  · have hkeeps := wp_mono (fun _ _ h => Aside.keeps h)
      ((aside_of_quiet (quiet_findOrCreate srv env ext)).within.wp Aside.refl Aside.trans db)
    refine wp_seq (wp_and hkeeps (linkFor_findOrCreate hlogin.drawn hlogin.link))
      fun res db₁ h => ?_
    obtain ⟨hkeeps, hsubject, -⟩ := h
    split
    · next did new =>
      exact wp_mono (fun _ _ h => h.of_keeps hkeeps)
        (wp_finishSession r ext st (hsubject did new rfl) (hlogin.session.of_keeps hkeeps))
    · exact .kept hkeeps rfl
    · exact .kept hkeeps rfl

theorem within_checkDuress (did password : Bytes) :
    (checkDuress srv did password).Within (· = ·) := by
  refine within_bind (within_select (fun _ => rfl) _) fun r => ?_
  split
  · split
    · split <;> trivial
    · trivial
  · trivial

theorem linkFor_withDuress (password : Bytes) (hnew : NewFor S srv env)
    (hlink : LinkFor S db ext.provider ext.externalID) :
    (withDuress srv env ext password).wp
      (fun ext' db' => LinkFor S db' ext'.provider ext'.externalID) db := by
  refine wp_seq (linkFor_findOrCreate hnew hlink) fun res db₁ h => ?_
  split
  · exact wp_bind_reads (within_checkDuress ..) fun _ => h.2
  · exact h.2

theorem linkFor_verifyCredentials {identifier : Bytes} (password : Bytes)
    (hlink : LinkFor S db "password" (normaliseEmail srv identifier)) :
    (verifyCredentials srv identifier password).wp (fun res db' => db' = db
        ∧ ∀ ext, res = .ok ext → LinkFor S db ext.provider ext.externalID) db := by
  refine wp_bind_reads (within_bind (within_select (fun _ => rfl) _) fun _ => trivial) fun res => ?_
  split
  · split
    · refine ⟨rfl, fun ext hok => ?_⟩
      obtain rfl := Res.ok.inj hok
      exact hlink
    · exact ⟨rfl, fun ext hok => by cases hok⟩
  · exact ⟨rfl, fun ext hok => by cases hok⟩

theorem wp_verifyToken (now : Int) (rawToken : Bytes) :
    (verifyToken srv now rawToken).wp
      (fun res db' => (Keeps db db' ∧ db'.externalLinks = db.externalLinks)
        ∧ ∀ ext, res = .ok ext → ∃ t, db.magicLinkTokens.find (hashMagicToken srv rawToken) = some t
            ∧ ext.provider = "magiclink-email" ∧ ext.externalID = t.email) db := by
  refine wp_lookup_bind ?_ fun e => ⟨⟨Keeps.refl db, rfl⟩, fun ext hok => by cases hok⟩
  cases hfind : db.magicLinkTokens.find (hashMagicToken srv rawToken) with
  | none => exact ⟨⟨Keeps.refl db, rfl⟩, fun ext hok => by cases hok⟩
  | some t =>
    have hdelete : (deleteMagicLinkToken (hashMagicToken srv rawToken)).wp
        (fun _ db' => Keeps db db' ∧ db'.externalLinks = db.externalLinks) db :=
      ⟨⟨⟨rfl, rfl⟩, rfl⟩, fun _ => ⟨Keeps.refl db, rfl⟩⟩
    refine wp_ite (fun _ => ?_) fun _ => ?_
    · exact wp_seq hdelete fun _ _ h => ⟨h, fun ext hok => by cases hok⟩
    · refine wp_seq hdelete fun _ _ h => ⟨h, fun ext hok => ?_⟩
      obtain rfl := Res.ok.inj hok
      exact ⟨t, rfl, rfl, rfl⟩

end Logins

def sessionSubjects (db : DB) (id : Bytes) : List Bytes :=
  (db.sessions.find id).toList.map OIDCSession.subjectDID

def drawnSubjects (srv : Server) (env : Env) : List Bytes :=
  (newKeyDID srv env.rand).toOption.toList.map Prod.fst

/-- The linked subject, the drawn one, and that of a session whose ID is drawn again. -/
def loginSubjects (srv : Server) (env : Env) (db : DB) (provider externalID : Bytes) : List Bytes :=
  (db.externalLinks.find (provider, externalID)).toList.map ExternalProviderLink.subjectDID
    ++ drawnSubjects srv env ++ sessionSubjects db (finishID env)

section Subjects

variable {S : Bytes → Prop} {srv : Server} {env : Env} {db : DB}

theorem sessionFor_of_mem {id : Bytes} (h : ∀ did ∈ sessionSubjects db id, S did) :
    SessionFor S db id :=
  fun _ hold => h _ (List.mem_map_of_mem (Option.mem_toList.mpr hold))

theorem mem_toList_of_ok {α : Type} {res : Res α} {x : α} (h : res = .ok x) :
    x ∈ res.toOption.toList :=
  Option.mem_toList.mpr (Res.toOption_eq_some.mpr h)

theorem newFor_of_mem (h : ∀ did ∈ drawnSubjects srv env, S did) : NewFor S srv env := by
  intro did doc hdid
  exact h did (List.mem_map.mpr ⟨(did, doc), mem_toList_of_ok hdid, rfl⟩)

theorem loginFor_of_mem {provider externalID : Bytes}
    (h : ∀ did ∈ loginSubjects srv env db provider externalID, S did) :
    LoginFor S srv env db provider externalID := by
  obtain ⟨h, hid⟩ := List.forall_mem_append.mp h
  obtain ⟨hlink, hnew⟩ := List.forall_mem_append.mp h
  exact ⟨newFor_of_mem hnew, fun l hl => hlink _ (List.mem_map_of_mem (Option.mem_toList.mpr hl)),
    sessionFor_of_mem hid⟩

end Subjects

end TptIdentity.Bridge
