import TptIdentity.EventsModel
import TptIdentity.GoSection

/-!
# The audit chain

Two logs that verify and have the same head hash hold the same events
(`contents_eq_of_headHash_eq`). The chain stays linear if nobody reads the head while another
publication is between its read and its write, and reads fail on an empty log only
(`everyState_linked`).
-/

namespace TptIdentity.Auditlog

open Go Store Events List Pool

/-- Every row continues from the row before it, the first one from `prev`. -/
def Linked : Bytes → List AuditEvent → Prop
  | _, [] => True
  | prev, e :: rows => e.prevHash = prev ∧ Linked e.hash rows

instance decidableLinked : ∀ (prev : Bytes) (rows : List AuditEvent), Decidable (Linked prev rows)
  | _, [] => inferInstanceAs (Decidable True)
  | prev, e :: rows =>
    have := decidableLinked e.hash rows
    inferInstanceAs (Decidable (e.prevHash = prev ∧ Linked e.hash rows))

def headHash (rows : List AuditEvent) : Bytes := (rows.getLast?.map AuditEvent.hash).getD []

@[simp] theorem headHash_concat (rows : List AuditEvent) (e : AuditEvent) :
    headHash (rows ++ [e]) = e.hash := by
  simp [headHash]

theorem linked_concat {rows : List AuditEvent} {e : AuditEvent} :
    ∀ {prev : Bytes}, Linked prev (rows ++ [e])
      ↔ Linked prev rows ∧ e.prevHash = (rows.getLast?.map AuditEvent.hash).getD prev := by
  induction rows with
  | nil =>
    intro prev
    simp [Linked]
  | cons e' rows ih =>
    intro prev
    have hlast : ((e' :: rows).getLast?.map AuditEvent.hash).getD prev
        = (rows.getLast?.map AuditEvent.hash).getD e'.hash := by
      rw [getLast?_cons]
      cases rows.getLast? with
      | none => rfl
      | some _ => rfl
    show e'.prevHash = prev ∧ Linked e'.hash (rows ++ [e]) ↔ _
    rw [ih, hlast, ← and_assoc]
    exact Iff.rfl

/-! ## Tampering -/

def message (e : AuditEvent) : Bytes := auditMessage e.eventType e.payload e.prevHash

structure Verified (sha256 : Bytes → Bytes) (rows : List AuditEvent) : Prop where
  linked : Linked [] rows
  hashes : ∀ e ∈ rows, e.hash = auditHash sha256 e.eventType e.payload e.prevHash

def HashText (h : Bytes) : Prop :=
  h = [] ∨ ∃ digest : Bytes, digest.length = 32 ∧ h = encodeHex digest

theorem hashText_append_inj {h h' s s' : Bytes} (hh : HashText h) (hh' : HashText h')
    (heq : h ++ 123 :: s = h' ++ 123 :: s') : h = h' ∧ s = s' := by
  have hbrace : ∀ digest : Bytes, 123 ∉ encodeHex digest := by
    intro digest hmem
    have := hexVal_of_mem_encodeHex hmem
    revert this
    decide
  have hlen : h.length = h'.length := by
    rcases hh with rfl | ⟨d, hd, rfl⟩ <;> rcases hh' with rfl | ⟨d', hd', rfl⟩
    · rfl
    · cases hx : encodeHex d' with
      | nil => rfl
      | cons c t =>
        rw [hx] at heq
        have hc := (cons.inj heq).1
        exact absurd (hx ▸ hc ▸ mem_cons_self) (hbrace d')
    · cases hx : encodeHex d with
      | nil => rfl
      | cons c t =>
        rw [hx] at heq
        have hc := (cons.inj heq).1
        exact absurd (hx ▸ hc.symm ▸ mem_cons_self) (hbrace d)
    · rw [length_encodeHex, length_encodeHex, hd, hd']
  obtain ⟨hpre, hrest⟩ := append_inj heq hlen
  exact ⟨hpre, (cons.inj hrest).2⟩

theorem auditMessage_inj {eventType payload prevHash eventType' payload' prevHash' : Bytes}
    (hprev : HashText prevHash) (hprev' : HashText prevHash')
    (hutf : validUtf8 eventType ∧ validUtf8 payload)
    (hutf' : validUtf8 eventType' ∧ validUtf8 payload')
    (heq : auditMessage eventType payload prevHash
      = auditMessage eventType' payload' prevHash') :
    prevHash = prevHash' ∧ eventType = eventType' ∧ payload = payload' := by
  obtain ⟨rfl, htail⟩ := hashText_append_inj hprev hprev' heq
  have htext := congrArg (cons (123 : UInt8)) htail
  have hwire := wire_eq_of_text_eq (v := .obj [("event_type", .str eventType),
    ("payload", .str payload), ("prev_hash", .str prevHash)])
    (w := .obj [("event_type", .str eventType'), ("payload", .str payload'),
      ("prev_hash", .str prevHash)]) rfl rfl htext
  simp only [Value.wire, wireMembers, Json.obj.injEq, cons.injEq, Prod.mk.injEq,
    Json.str.injEq, true_and, and_true] at hwire
  obtain ⟨htype, hpayload⟩ := hwire
  rw [coerce_eq_self hutf.1, coerce_eq_self hutf'.1] at htype
  rw [coerce_eq_self hutf.2, coerce_eq_self hutf'.2] at hpayload
  exact ⟨rfl, htype, hpayload⟩

section Tampering

variable {sha256 : Bytes → Bytes} {rows : List AuditEvent} {e : AuditEvent}

theorem verified_concat : Verified sha256 (rows ++ [e])
    ↔ Verified sha256 rows ∧ e.prevHash = headHash rows
      ∧ e.hash = encodeHex (sha256 (message e)) := by
  constructor
  · rintro ⟨hlinked, hhashes⟩
    obtain ⟨hrows, hprev⟩ := linked_concat.mp hlinked
    exact ⟨⟨hrows, fun e' he' => hhashes e' (mem_append_left _ he')⟩, hprev,
      hhashes e (mem_append_right _ (mem_singleton_self _))⟩
  · rintro ⟨hrows, hprev, hhash⟩
    refine ⟨linked_concat.mpr ⟨hrows.linked, hprev⟩, ?_⟩
    intro e' he'
    rcases mem_append.mp he' with he' | he'
    · exact hrows.hashes e' he'
    · rw [mem_singleton.mp he']
      exact hhash

theorem Verified.headHash_hashText (hlen : ∀ b, (sha256 b).length = 32)
    (h : Verified sha256 rows) : HashText (headHash rows) := by
  rcases eq_nil_or_concat rows with rfl | ⟨rows', e', rfl⟩
  · exact Or.inl rfl
  · rw [concat_eq_append] at h ⊢
    obtain ⟨-, -, hhash⟩ := verified_concat.mp h
    rw [headHash_concat, hhash]
    exact Or.inr ⟨_, hlen _, rfl⟩

theorem Verified.headHash_concat_ne (hlen : ∀ b, (sha256 b).length = 32)
    (h : Verified sha256 (rows ++ [e])) : headHash (rows ++ [e]) ≠ [] := by
  obtain ⟨-, -, hhash⟩ := verified_concat.mp h
  rw [headHash_concat, hhash]
  refine encodeHex_ne_nil ?_
  intro hnil
  have := hlen (message e)
  rw [hnil] at this
  cases this

end Tampering

def contents (rows : List AuditEvent) : List (Bytes × Bytes) :=
  rows.map fun e => (e.eventType, e.payload)

theorem contents_eq {sha256 : Bytes → Bytes} (hlen : ∀ b, (sha256 b).length = 32)
    {rows rows' : List AuditEvent} (h : Verified sha256 rows) (h' : Verified sha256 rows')
    (hinj : Set.InjOn sha256 {m | ∃ e ∈ rows ++ rows', m = message e})
    (hutf : ∀ e ∈ rows ++ rows', validUtf8 e.eventType ∧ validUtf8 e.payload)
    (hhead : headHash rows = headHash rows') : contents rows = contents rows' := by
  -- from the last row: the hashes agree, hence the texts, hence the contents and the
  -- hashes of the rows before
  induction rows using reverseRecOn generalizing rows' with
  | nil =>
    rcases eq_nil_or_concat rows' with rfl | ⟨rows', e', rfl⟩
    · rfl
    · rw [concat_eq_append] at h' hhead
      exact absurd hhead.symm (h'.headHash_concat_ne hlen)
  | append_singleton rows e ih =>
    rcases eq_nil_or_concat rows' with rfl | ⟨rows', e', rfl⟩
    · exact absurd hhead (h.headHash_concat_ne hlen)
    · rw [concat_eq_append] at *
      obtain ⟨hrows, hprev, hhash⟩ := verified_concat.mp h
      obtain ⟨hrows', hprev', hhash'⟩ := verified_concat.mp h'
      have hmem : e ∈ (rows ++ [e]) ++ (rows' ++ [e']) := by simp
      have hmem' : e' ∈ (rows ++ [e]) ++ (rows' ++ [e']) := by simp
      have hsub : ∀ x ∈ rows ++ rows', x ∈ (rows ++ [e]) ++ (rows' ++ [e']) := by
        intro x hx
        rcases mem_append.mp hx with hx | hx
        · exact mem_append_left _ (mem_append_left _ hx)
        · exact mem_append_right _ (mem_append_left _ hx)
      rw [headHash_concat, headHash_concat, hhash, hhash'] at hhead
      have hmessage : message e = message e' :=
        hinj ⟨e, hmem, rfl⟩ ⟨e', hmem', rfl⟩ (encodeHex_injective hhead)
      obtain ⟨hprevs, htype, hpayload⟩ := auditMessage_inj
        (hprev ▸ hrows.headHash_hashText hlen) (hprev' ▸ hrows'.headHash_hashText hlen)
        (hutf e hmem) (hutf e' hmem') hmessage
      have hbefore : contents rows = contents rows' := by
        refine ih hrows hrows' (hinj.mono ?_) (fun x hx => hutf x (hsub x hx)) ?_
        · rintro m ⟨x, hx, rfl⟩
          exact ⟨x, hsub x hx, rfl⟩
        · rw [← hprev, ← hprev', hprevs]
      rw [contents, contents, map_append, map_append]
      show contents rows ++ _ = contents rows' ++ _
      rw [hbefore, map_singleton, map_singleton, htype, hpayload]

/-- Two verified logs with the same head hash have the same contents, unless the hash collides. -/
theorem contents_eq_of_headHash_eq (sha256 : Bytes → Bytes) (hlen : ∀ b, (sha256 b).length = 32)
    (rows rows' : List AuditEvent)
    (hinj : Set.InjOn sha256 {m | ∃ e ∈ rows ++ rows', m = message e})
    (h : Verified sha256 rows) (h' : Verified sha256 rows')
    (hutf : ∀ e ∈ rows ++ rows', validUtf8 e.eventType = true ∧ validUtf8 e.payload = true)
    (hhead : headHash rows = headHash rows') :
    rows.length = rows'.length
    ∧ ∀ (i : Nat) (hi : i < rows.length) (hi' : i < rows'.length),
        rows[i].eventType = rows'[i].eventType ∧ rows[i].payload = rows'[i].payload := by
  have hcontents := contents_eq hlen h h' hinj hutf hhead
  refine ⟨by simpa [contents] using congrArg length hcontents, ?_⟩
  intro i hi hi'
  have hget := congrArg (fun l => l[i]?) hcontents
  simpa [contents, hi, hi'] using hget

namespace Sample

def sha256 (b : Bytes) : Bytes := replicate 32 (UInt8.ofNat b.length)

def row (seq : Nat) (eventType prevHash : Bytes) : AuditEvent :=
  ⟨seq, eventType, "null", auditHash sha256 eventType "null" prevHash, prevHash⟩

def log (second : Nat) : List AuditEvent :=
  [row 1 "a" [], row second "b" (row 1 "a" []).hash]

end Sample

open Sample

theorem contents_eq_sample :
    (log 2).length = (log 3).length
    ∧ ∀ (i : Nat) (_ : i < (log 2).length) (_ : i < (log 3).length),
        (log 2)[i].eventType = (log 3)[i].eventType
        ∧ (log 2)[i].payload = (log 3)[i].payload := by
  refine contents_eq_of_headHash_eq sha256 (fun b => length_replicate)
    (log 2) (log 3) ?_ ⟨by decide +kernel, by decide +kernel⟩
    ⟨by decide +kernel, by decide +kernel⟩ (by decide +kernel) (by decide +kernel)
  have hmessages : ∀ e ∈ log 2 ++ log 3, ∀ e' ∈ log 2 ++ log 3,
      sha256 (message e) = sha256 (message e') → message e = message e' := by
    decide +kernel
  rintro _ ⟨e, he, rfl⟩ _ ⟨e', he', rfl⟩ heq
  exact hmessages e he e' he' heq

/-! ## Concurrent publications -/

/-- The audit logger is a subscriber, and the others make no calls to the store. -/
def Audited (sha256 : Bytes → Bytes) (bus : Bus) : Prop :=
  ∃ before after, bus.subscribers = before ++ handle sha256 :: after
    ∧ ∀ fn ∈ before ++ after, ∀ event, fn event = pure ()

theorem notify_silent {event : Event} : ∀ {fns : List LocalSubscriber},
    (∀ fn ∈ fns, fn event = pure ()) → notify event fns = pure ()
  | [], _ => rfl
  | fn :: fns, h => by
    show (fn event >>= fun _ => notify event fns) = pure ()
    rw [h fn mem_cons_self]
    exact notify_silent fun fn' h' => h fn' (mem_cons_of_mem _ h')

theorem notify_append_silent {event : Event} {fns' : List LocalSubscriber} :
    ∀ {fns : List LocalSubscriber}, (∀ fn ∈ fns, fn event = pure ()) →
      notify event (fns ++ fns') = notify event fns'
  | [], _ => rfl
  | fn :: fns, h => by
    show (fn event >>= fun _ => notify event (fns ++ fns')) = notify event fns'
    rw [h fn mem_cons_self]
    exact notify_append_silent fun fn' h' => h fn' (mem_cons_of_mem _ h')

theorem Audited.notify {sha256 : Bytes → Bytes} {bus : Bus} (h : Audited sha256 bus)
    (event : Event) :
    notify event bus.subscribers = (handle sha256 event >>= fun _ => pure ()) := by
  obtain ⟨before, after, hsubs, hsilent⟩ := h
  rw [hsubs, notify_append_silent fun fn hfn => hsilent fn (mem_append_left _ hfn) event]
  show (handle sha256 event >>= fun _ => Events.notify event after) = _
  rw [notify_silent fun fn hfn => hsilent fn (mem_append_right _ hfn) event]

theorem linked_append {log : AuditLog} (h : Linked [] log.rows) (eventType payload hash : Bytes) :
    Linked [] (log.append eventType payload hash (headHash log.rows)).rows :=
  linked_concat.mpr ⟨h, rfl⟩

def HeadRead (n : Nat) (fault : Option Err) (db : DB) : Prop :=
  n = 0 → fault.isSome = true → db.auditLog.rows = []
deriving Decidable

def KeepsLinked (n : Nat) (p : Proc DB (List Delivery)) (log : AuditLog) : Prop :=
  p.Restores (fun _ : Unit => DB.auditLog) () (fun log => Linked [] log.rows)
    (fun log => Linked [] log.rows) HeadRead 2 n log

theorem restores_publish {sha256 : Bytes → Bytes} {bus : Bus} (hbus : Audited sha256 bus)
    (event : Event) {log : AuditLog} (hlog : Linked [] log.rows) :
    KeepsLinked 0 (bus.publish event) log := by
  unfold Bus.publish
  cases marshal event.value with
  | err e => exact hlog
  | panics r => exact hlog
  | ok body =>
    rw [hbus.notify]
    -- after the append nothing touches the log
    have hrest : ∀ log' : AuditLog, Linked [] log'.rows → KeepsLinked 2
        (listWebhookSubscriptions event.type >>= fun subs => pure (deliveries body subs))
        log' := by
      intro log' hlog'
      exact ⟨fun h => absurd h (by decide),
        fun _ => ⟨hlog', fun _ _ => rfl, fun _ => trivial, fun _ => trivial⟩⟩
    -- the append, if the head that was read is still the head
    have happend : ∀ prevHash, prevHash = headHash log.rows → KeepsLinked 1
        (appendAuditEvent sha256 event.type ((marshal event.payload).getD "\x7b\x7d")
          prevHash >>= fun _ => listWebhookSubscriptions event.type >>= fun subs =>
            pure (deliveries body subs)) log := by
      rintro _ rfl
      refine ⟨fun _ => ⟨hlog, ?_⟩, fun h => absurd h (by decide)⟩
      rintro db rfl
      exact ⟨fun _ => ⟨⟨trivial, fun _ hne => absurd rfl hne⟩,
        hrest _ (linked_append hlog _ _ _)⟩, fun e _ => hrest _ hlog⟩
    refine ⟨fun _ => ⟨hlog, ?_⟩, fun h => absurd h (by decide)⟩
    rintro db rfl
    refine ⟨fun _ => ⟨⟨trivial, fun _ _ => rfl⟩, happend _ ?_⟩, fun e hread => happend _ ?_⟩
    · show ((found db.auditLog.rows.getLast?).toOption.map AuditEvent.hash).getD [] = _
      unfold headHash
      cases db.auditLog.rows.getLast? with
      | none => rfl
      | some head => rfl
    · unfold headHash
      rw [hread rfl rfl]
      rfl

/-- Nobody reads the head while another publication is between its read and its append, and the
read fails on an empty log only. -/
@[mk_iff]
structure InTurn {ι : Type} (pool : Pool ι DB (List Delivery)) (e : ι × Option Err) : Prop where
  alone : Alone (fun _ => ()) 2 pool e
  read : HeadRead (pool.threads e.1).calls e.2 pool.state

instance decidableInTurn {ι : Type} [Fintype ι] [DecidableEq ι]
    (pool : Pool ι DB (List Delivery)) (e : ι × Option Err) : Decidable (InTurn pool e) :=
  decidable_of_iff' _ (inTurn_iff ..)

/-- The log stays a chain in every schedule without a read of the head between another publication's
read and append, or one that fails on a log with rows. -/
theorem everyState_linked {ι : Type} [DecidableEq ι] (sha256 : Bytes → Bytes) (bus : Bus)
    (hbus : Audited sha256 bus) (events : ι → Event) (db : DB)
    (hdb : Linked [] db.auditLog.rows) (schedule : List (ι × Option Err))
    (hschedule : EveryStep step InTurn (start db fun i => bus.publish (events i)) schedule) :
    EveryState step (fun pool => Linked [] pool.state.auditLog.rows)
      (start db fun i => bus.publish (events i)) schedule := by
  have hstates := everyState_of_alone (fun _ => ()) (fun _ => DB.auditLog)
    (fun _ log => Linked [] log.rows) (fun _ log => Linked [] log.rows) (fun _ => HeadRead)
    (by decide) (fun _ _ h => h)
    (fun i log hlog => restores_publish hbus (events i) hlog) (fun _ => hdb)
    (fun _ _ h => h.alone) (fun _ _ h _ => h.read) hschedule
  exact everyState_mono (fun pool h => (h ()).1) hstates

namespace Sample

def bus : Bus := subscribe sha256 newBus

theorem bus_audited : Audited sha256 bus := ⟨[], [], rfl, fun _ h => by cases h⟩

def events (second : Bool) : Event := ⟨[], if second then "b" else "a", [], .null⟩

def pool : Pool Bool DB (List Delivery) := start .empty fun i => bus.publish (events i)

def inTurn : List (Bool × Option Err) :=
  [(false, some errNoRows), (false, none), (true, none), (false, none), (true, none), (true, none)]

def overlapping : List (Bool × Option Err) :=
  [(false, none), (true, none), (false, none), (true, none)]

def unread : List (Bool × Option Err) :=
  [(false, none), (false, none), (true, some (.new "database is locked" [])), (true, none)]

end Sample

theorem everyState_linked_inTurn :
    EveryState step (fun pool => Linked [] pool.state.auditLog.rows) pool inTurn :=
  everyState_linked sha256 bus bus_audited events .empty trivial inTurn (by decide +kernel)

theorem not_linked_overlapping :
    ¬EveryState step (fun pool => Linked [] pool.state.auditLog.rows) pool overlapping
    ∧ ¬EveryState step (fun pool => Linked [] pool.state.auditLog.rows) pool unread := by
  decide +kernel

end TptIdentity.Auditlog
