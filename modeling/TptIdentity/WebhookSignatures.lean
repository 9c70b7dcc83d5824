import TptIdentity.WebhookModel

/-!
# Webhook signatures

The platform signs with the SHA-256 of the signing secret in hexadecimal, the receiver of the
README checks with the secret itself. So no delivery passes the check
(`verifyWebhook_eq_false`), as long as HMAC under different keys differs.

A run registers and deletes webhooks and publishes events, on any of the buses of the process.
What is assumed of a bus is that its subscribers leave the webhooks alone (`QuietBus`), which
holds of the bus of the handlers, without subscribers, and of the one with the audit logger.
The invariant (`Inv`) says what every stored hash and every sent signature was made from; an ID
that is drawn twice keeps its first hash.
-/

namespace TptIdentity.Webhooks

open Go Store Events Oidc Auditlog List Proc

/-! ## Buses -/

def SameWebhooks (db db' : DB) : Prop := db'.webhookSubscriptions = db.webhookSubscriptions

theorem SameWebhooks.refl (db : DB) : SameWebhooks db db := rfl

theorem SameWebhooks.trans {db db' db'' : DB} (h : SameWebhooks db db')
    (h' : SameWebhooks db' db'') : SameWebhooks db db'' := Eq.trans h' h

/-- A bus whose subscribers leave the webhooks alone. -/
structure QuietBus where
  bus : Bus
  quiet : ∀ fn ∈ bus.subscribers, ∀ event, (fn event).Within SameWebhooks

/-- The bus that `NewServer` makes, on which all handlers publish. -/
def QuietBus.new : QuietBus := ⟨newBus, fun _ h => by cases h⟩

theorem sameWebhooks_handle (sha256 : Bytes → Bytes) (event : Event) :
    (handle sha256 event).Within SameWebhooks :=
  within_bind (within_select SameWebhooks.refl _)
    fun _ => within_bind (within_query fun _ => rfl) fun _ => trivial

/-- The bus of the serve command, with the audit logger. -/
def QuietBus.audited (sha256 : Bytes → Bytes) : QuietBus where
  bus := subscribe sha256 newBus
  quiet _ hfn event := mem_singleton.mp hfn ▸ sameWebhooks_handle sha256 event

theorem sameWebhooks_notify (event : Event) : ∀ {fns : List LocalSubscriber},
    (∀ fn ∈ fns, ∀ event, (fn event).Within SameWebhooks) → (notify event fns).Within SameWebhooks
  | [], _ => trivial
  | _ :: _, h =>
    within_bind (h _ mem_cons_self event) fun _ =>
      sameWebhooks_notify event fun fn hfn => h fn (mem_cons_of_mem _ hfn)

/-! ## Runs -/

/-- The store, what registrations have returned, and the requests that were sent. -/
structure State where
  db : DB
  secrets : List (Bytes × Bytes)
  sent : List (Bytes × Outgoing)

inductive Step where
  | register (net : Net) (env : Env) (req : Option RegisterWebhookRequest)
  | delete (id : Bytes)
  | publish (q : QuietBus) (event : Event) (client : Events.Delivery → Client)
  /-- Whatever else changes the store, but for the webhooks. -/
  | other (db : DB)

structure Call where
  step : Step
  faults : Faults

def issued : Response → List (Bytes × Bytes)
  | .json 201 (.obj [(_, .str id), _, _, (_, .str secret), _]) => [(id, secret)]
  | _ => []

section Runs

variable (sha256 : Bytes → Bytes)

def next (st : State) (c : Call) : State :=
  match c.step with
  | .register net env req =>
    let (response, db) := (handleRegisterWebhook sha256 net env req).run c.faults st.db
    { st with db := db, secrets := st.secrets ++ issued response }
  | .delete id => { st with db := ((handleDeleteWebhook id).run c.faults st.db).2 }
  | .publish q event client =>
    let (started, db) := (q.bus.publish event).run c.faults st.db
    let requests d := (deliver sha256 (client d) d).1.map fun r => (d.sub.id, r)
    { st with db := db, sent := st.sent ++ started.flatMap requests }
  | .other db => { st with db := { db with webhookSubscriptions := st.db.webhookSubscriptions } }

def run (db : DB) (calls : List Call) : State := calls.foldl (next sha256) ⟨db, [], []⟩

/-- HMAC of a body under different keys differs, for the signing secrets and their hashes. -/
def HmacApart (st : State) : Prop :=
  ∀ e ∈ st.sent, Set.InjOn (fun key => hmacSHA256 sha256 key e.2.body)
    {key | ∃ s ∈ st.secrets, key = s.2 ∨ key = sha256WebhookSecret sha256 s.2}

/-! ## What is signed with what -/

def Hashed (secrets : List (Bytes × Bytes)) (row : WebhookRow) : Prop :=
  ∃ s ∈ secrets, s.1 = row.id ∧ row.secretHash = sha256WebhookSecret sha256 s.2

/-- The request is signed with the hash of a secret that was returned for the webhook. -/
def SignedWith (secrets : List (Bytes × Bytes)) (e : Bytes × Outgoing) : Prop :=
  ∃ s ∈ secrets, s.1 = e.1
    ∧ param e.2.header "X-TPT-Signature-256"
      = "sha256=" ++ computeHMAC sha256 e.2.body (sha256WebhookSecret sha256 s.2)

structure Inv (st : State) : Prop where
  secrets : ∀ s ∈ st.secrets, ∃ raw, s.2 = "whsec_" ++ encodeHex raw
  hashed : ∀ row ∈ st.db.webhookSubscriptions.rows, Hashed sha256 st.secrets row
  signed : ∀ e ∈ st.sent, SignedWith sha256 st.secrets e

end Runs

variable {st : State} {secrets : List (Bytes × Bytes)} {row : WebhookRow}
  {secrets' : List (Bytes × Bytes)}

section Invariant

variable {sha256 : Bytes → Bytes}

theorem Hashed.mono (h : Hashed sha256 secrets row) (hsub : secrets ⊆ secrets') :
    Hashed sha256 secrets' row := by
  obtain ⟨s, hs, hrow⟩ := h
  exact ⟨s, hsub hs, hrow⟩

theorem SignedWith.mono {e : Bytes × Outgoing} (h : SignedWith sha256 secrets e)
    (hsub : secrets ⊆ secrets') : SignedWith sha256 secrets' e := by
  obtain ⟨s, hs, he⟩ := h
  exact ⟨s, hsub hs, he⟩

theorem randomWebhookSecret_ok {rand : Rand} {secret : Bytes}
    (h : randomWebhookSecret rand = .ok secret) :
    ∃ raw, secret = "whsec_" ++ encodeHex raw := by
  obtain ⟨raw, -, hraw⟩ := Res.bind_eq_ok.mp h
  exact ⟨raw, (Res.ok.inj hraw).symm⟩

theorem wp_handleRegisterWebhook (net : Net) (env : Env) (req : Option RegisterWebhookRequest)
    (db : DB) :
    (handleRegisterWebhook sha256 net env req).wp
      (fun response db' => (issued response = [] ∧ db' = db)
        ∨ ∃ sub secret, (∃ raw, secret = "whsec_" ++ encodeHex raw)
          ∧ issued response = [(sub.id, secret)]
          ∧ sub.secretHash = sha256WebhookSecret sha256 secret
          ∧ db'.webhookSubscriptions = db.webhookSubscriptions.upsert WebhookRow.merge
            WebhookRow.id_merge (.ofSubscription sub)) db := by
  cases req with
  | none => exact .inl ⟨rfl, rfl⟩
  | some req =>
    refine wp_ite (fun _ => .inl ⟨rfl, rfl⟩) fun _ => ?_
    cases validateWebhookURL net req.url with
    | ok _ =>
      cases hsecret : randomWebhookSecret env.rand with
      | ok secret =>
        cases randomWebhookID env.rand with
        | ok id =>
          refine (wp_bind ..).mpr ((wp_exec ..).mpr ⟨.inr ?_, ?_⟩)
          · exact ⟨_, secret, randomWebhookSecret_ok hsecret, rfl, rfl, rfl⟩
          · exact fun e => .inl ⟨rfl, rfl⟩
        | err e => exact .inl ⟨rfl, rfl⟩
        | panics reason => exact .inl ⟨rfl, rfl⟩
      | err e => exact .inl ⟨rfl, rfl⟩
      | panics reason => exact .inl ⟨rfl, rfl⟩
    | err e => exact .inl ⟨rfl, rfl⟩
    | panics reason => exact .inl ⟨rfl, rfl⟩

theorem wp_publish (q : QuietBus) (event : Event) (db : DB) :
    (q.bus.publish event).wp (fun started db' => SameWebhooks db db'
        ∧ ∀ d ∈ started, ∃ row ∈ db.webhookSubscriptions.rows, d.sub = row.scan) db := by
  unfold Bus.publish
  cases marshal event.value with
  | ok body =>
    refine (wp_bind ..).mpr (wp_mono (fun _ db' hdb => ?_)
      ((sameWebhooks_notify event q.quiet).wp SameWebhooks.refl SameWebhooks.trans db))
    refine ⟨⟨hdb, fun d hd => ?_⟩, fun e => ⟨hdb, fun _ h => by cases h⟩⟩
    obtain ⟨sub, hsub, rfl⟩ := mem_map.mp hd
    obtain ⟨row, hrow, rfl⟩ := mem_map.mp (mem_filter.mp hsub).1
    exact ⟨row, (show _ = _ from hdb) ▸ hrow, rfl⟩
  | err e => exact ⟨rfl, fun _ h => by cases h⟩
  | panics reason => exact ⟨rfl, fun _ h => by cases h⟩

theorem Inv.register (h : Inv sha256 st) (net : Net) (env : Env)
    (req : Option RegisterWebhookRequest) (faults : Faults) :
    Inv sha256 (next sha256 st ⟨.register net env req, faults⟩) := by
  show Inv sha256 { st with
    db := ((handleRegisterWebhook sha256 net env req).run faults st.db).2
    secrets := st.secrets ++ issued
      ((handleRegisterWebhook sha256 net env req).run faults st.db).1 }
  rcases wp_run (wp_handleRegisterWebhook net env req st.db) faults with
    ⟨hissued, hdb⟩ | ⟨sub, secret, hraw, hissued, hhash, hdb⟩
  · rw [hissued, hdb, append_nil]
    exact h
  · rw [hissued]
    have hsub : st.secrets ⊆ st.secrets ++ [(sub.id, secret)] := subset_append_left _ _
    have hnew : (sub.id, secret) ∈ st.secrets ++ [(sub.id, secret)] :=
      mem_append_right _ (mem_singleton_self _)
    refine ⟨fun s hs => ?_, fun row hrow => ?_, fun e he => (h.signed e he).mono hsub⟩
    · rcases mem_append.mp hs with hs | hs
      · exact h.secrets s hs
      · rw [mem_singleton.mp hs]
        exact hraw
    · rw [show _ = _ from hdb] at hrow
      rcases Table.mem_upsert WebhookRow.id_merge hrow with hold | rfl | ⟨old, hold, -, rfl⟩
      · exact (h.hashed row hold).mono hsub
      · exact ⟨_, hnew, rfl, hhash⟩
      · -- an ID that was drawn before keeps its hash
        obtain ⟨s, hs, hid, hkept⟩ := h.hashed old hold
        exact ⟨s, hsub hs, hid, hkept⟩

theorem Inv.delete (h : Inv sha256 st) (id : Bytes) (faults : Faults) :
    Inv sha256 (next sha256 st ⟨.delete id, faults⟩) := by
  have hrows : (handleDeleteWebhook id).wp (fun _ db' =>
      ∀ row ∈ db'.webhookSubscriptions.rows, row ∈ st.db.webhookSubscriptions.rows) st.db :=
    (wp_bind ..).mpr ((wp_exec ..).mpr
      ⟨fun row hrow => (Table.mem_delete.mp hrow).1, fun e row hrow => hrow⟩)
  exact ⟨h.secrets, fun row hrow => h.hashed row (wp_run hrows faults row hrow), h.signed⟩

theorem signedWith_request (h : Hashed sha256 secrets row) {d : Events.Delivery}
    (hd : d.sub = row.scan) {client : Client} {r : Outgoing}
    (hr : r ∈ (deliver sha256 client d).1) :
    SignedWith sha256 secrets (d.sub.id, r) := by
  obtain ⟨s, hs, hid, hhash⟩ := h
  rw [eq_of_mem_attempts hr]
  refine ⟨s, hs, hid.trans (congrArg WebhookSubscription.id hd).symm, ?_⟩
  rw [← hhash, signature_request, hd]
  rfl

theorem Inv.publish (h : Inv sha256 st) (q : QuietBus) (event : Event)
    (client : Events.Delivery → Client) (faults : Faults) :
    Inv sha256 (next sha256 st ⟨.publish q event client, faults⟩) := by
  obtain ⟨hdb, hstarted⟩ := wp_run (wp_publish q event st.db) faults
  refine ⟨h.secrets, fun row hrow => h.hashed row (hdb ▸ hrow), fun e he => ?_⟩
  rcases mem_append.mp he with he | he
  · exact h.signed e he
  · obtain ⟨d, hd, hmem⟩ := mem_flatMap.mp he
    obtain ⟨r, hr, rfl⟩ := mem_map.mp hmem
    obtain ⟨row, hrow, hsub⟩ := hstarted d hd
    exact signedWith_request (h.hashed row hrow) hsub hr

theorem Inv.next (h : Inv sha256 st) (c : Call) : Inv sha256 (next sha256 st c) := by
  obtain ⟨step, faults⟩ := c
  cases step with
  | register net env req => exact h.register net env req faults
  | delete id => exact h.delete id faults
  | publish q event client => exact h.publish q event client faults
  | other db => exact ⟨h.secrets, h.hashed, h.signed⟩

theorem inv_run {db : DB} (hdb : db.webhookSubscriptions.rows = []) (calls : List Call) :
    Inv sha256 (run sha256 db calls) := by
  have hstart : Inv sha256 ⟨db, [], []⟩ := by
    refine ⟨fun s h => ?_, fun row hrow => ?_, fun e h => ?_⟩
    · cases h
    · rw [show db.webhookSubscriptions.rows = [] from hdb] at hrow
      cases hrow
    · cases h
  exact foldlRecOn calls _ hstart fun _ h c _ => h.next c

theorem secret_ne_encodeHex (raw b : Bytes) : "whsec_" ++ encodeHex raw ≠ encodeHex b := by
  intro h
  have hmem : (str "w").head! ∈ encodeHex b := h ▸ mem_append_left _ (by decide)
  exact absurd (hexVal_of_mem_encodeHex hmem) (by decide)

end Invariant

/-- No request that was ever sent to a webhook passes the documented check with a secret that was
returned for it. -/
theorem verifyWebhook_eq_false (sha256 : Bytes → Bytes) (db : DB)
    (hdb : db.webhookSubscriptions.rows = []) (calls : List Call)
    (hapart : HmacApart sha256 (run sha256 db calls)) :
    ∀ id r secret, (id, r) ∈ (run sha256 db calls).sent →
      (id, secret) ∈ (run sha256 db calls).secrets → verifyWebhook sha256 r secret = false := by
  have hinv : Inv sha256 (run sha256 db calls) := inv_run hdb calls
  intro id r secret hsent hsecret
  obtain ⟨s, hs, -, hsig⟩ := hinv.signed _ hsent
  obtain ⟨raw, hraw⟩ := hinv.secrets _ hsecret
  refine decide_eq_false fun heq => ?_
  rw [hsig] at heq
  have hmac := encodeHex_injective (append_cancel_left heq)
  have hkey := hapart _ hsent ⟨s, hs, .inr rfl⟩ ⟨_, hsecret, .inl rfl⟩ hmac
  exact secret_ne_encodeHex raw _ (hraw.symm.trans hkey.symm)

namespace Sample

def sha256 (b : Bytes) : Bytes := (b ++ replicate 32 0).take 32

def net : Net where
  parseRequestURI _ := some ("https", "hooks.example")
  lookupHost _ := .ok [some [203, 0, 113, 7]]

def client : Client := ⟨fun _ => none, fun _ => .ok 401⟩

def event : Event := ⟨"evt_1", "consent.granted", "1970-01-01T00:00:00Z", .null⟩

def calls : List Call :=
  [⟨.register net ⟨.of fun _ _ => 7, fun _ => 0⟩ (some ⟨"https://hooks.example/in", []⟩),
      fun _ => none⟩, ⟨.publish .new event fun _ => client, fun _ => none⟩,
    ⟨.publish (.audited sha256) event fun _ => client, fun _ => none⟩]

def state : State := run sha256 .empty calls

def id : Bytes := "wh_" ++ encodeHex (replicate 8 7)

def secret : Bytes := "whsec_" ++ encodeHex (replicate 32 7)

def body : Bytes := (marshal event.value).getD []

theorem secrets_eq : state.secrets = [(id, secret)] := by decide

def first : Bytes × Outgoing := (id, ((state.sent.map Prod.snd).headD ⟨[], .empty, []⟩))

theorem first_mem : first ∈ state.sent := by
  have hids : state.sent.map Prod.fst = replicate 6 id := by decide
  unfold first
  cases hsent : state.sent with
  | nil =>
    rw [hsent] at hids
    cases hids
  | cons e rest =>
    rw [hsent, map_cons] at hids
    rw [← (cons.inj hids).1]
    exact mem_cons_self

theorem hmacApart : HmacApart sha256 state := by
  intro e he
  have hne : hmacSHA256 sha256 secret body
      ≠ hmacSHA256 sha256 (sha256WebhookSecret sha256 secret) body := by decide
  rintro key ⟨s, hs, hkey⟩ key' ⟨s', hs', hkey'⟩ heq
  obtain rfl := mem_singleton.mp hs
  obtain rfl := mem_singleton.mp hs'
  rcases hkey with rfl | rfl
  · rcases hkey' with rfl | rfl
    · rfl
    · exact absurd heq hne
  · rcases hkey' with rfl | rfl
    · exact absurd heq.symm hne
    · rfl

end Sample

theorem verifyWebhook_first :
    Sample.first ∈ Sample.state.sent
      ∧ verifyWebhook Sample.sha256 Sample.first.2 Sample.secret = false :=
  ⟨Sample.first_mem, verifyWebhook_eq_false Sample.sha256 .empty rfl
    Sample.calls Sample.hmacApart Sample.id Sample.first.2 Sample.secret Sample.first_mem
    (Sample.secrets_eq ▸ mem_singleton_self _)⟩

theorem verifyWebhook_rejects :
    Sample.state.secrets = [(Sample.id, Sample.secret)]
      ∧ Sample.state.sent.map (fun e => (e.1, verifyWebhook Sample.sha256 e.2 Sample.secret))
        = replicate 6 (Sample.id, false) := by
  decide

end TptIdentity.Webhooks
