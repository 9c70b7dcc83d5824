import TptIdentity.StoreModel

/-!
# Packages events and auditlog

`Bus.Publish` hands an event to the subscribers of the process and starts one delivery per
matching webhook. The audit logger is a subscriber that reads the head and appends in two
statements; a head that cannot be read is taken for an empty log.
-/

namespace TptIdentity

namespace Events

open Go Store

structure Event where
  id : Bytes
  type : Bytes
  occuredAt : Bytes
  payload : Value

def Event.value (e : Event) : Value :=
  .obj [("id", .str e.id), ("type", .str e.type), ("occurred_at", .str e.occuredAt),
    ("payload", e.payload)]

abbrev LocalSubscriber := Event → Proc DB Unit

structure Bus where
  subscribers : List LocalSubscriber

def newBus : Bus := ⟨[]⟩

def Bus.subscribe (b : Bus) (fn : LocalSubscriber) : Bus := ⟨b.subscribers ++ [fn]⟩

structure Delivery where
  sub : WebhookSubscription
  body : Bytes
deriving DecidableEq, Repr

def notify (event : Event) : List LocalSubscriber → Proc DB Unit
  | [] => pure ()
  | fn :: subscribers => do
    fn event
    notify event subscribers

def deliveries (body : Bytes) : Res (List WebhookSubscription) → List Delivery
  | .ok subs => subs.map fun sub => ⟨sub, body⟩
  | _ => []

def Bus.publish (b : Bus) (event : Event) : Proc DB (List Delivery) :=
  match marshal event.value with
  | .ok body => do
    notify event b.subscribers
    let subs ← listWebhookSubscriptions event.type
    return deliveries body subs
  | _ => return []

theorem within_publish_newBus (e : Event) : (newBus.publish e).Within fun db db' => db' = db := by
  unfold Bus.publish
  cases marshal e.value with
  | ok body => exact ⟨fun _ => rfl, fun _ => trivial, fun _ => trivial⟩
  | err e => trivial
  | panics r => trivial

theorem within_answer {R : DB → DB → Prop} {α : Type} (hrefl : ∀ db, R db db) (e : Event)
    (answer : List Delivery → α) :
    (newBus.publish e >>= fun started => pure (answer started)).Within R :=
  Proc.within_bind ((within_publish_newBus e).mono fun db _ h => h ▸ hrefl db) fun _ => trivial

end Events

namespace Auditlog

open Go Store Events

def handle (sha256 : Bytes → Bytes) (event : Event) : Proc DB Unit := do
  let payload := (marshal event.payload).getD (str "\x7b\x7d")
  let head ← getAuditHead
  -- an error is taken for an empty log
  let prevHash := (head.toOption.map AuditEvent.hash).getD []
  let _ ← appendAuditEvent sha256 event.type payload prevHash
  return ()

def subscribe (sha256 : Bytes → Bytes) (bus : Bus) : Bus := bus.subscribe (handle sha256)

end Auditlog

end TptIdentity
