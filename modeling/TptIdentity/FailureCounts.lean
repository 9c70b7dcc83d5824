import TptIdentity.GoReadWrite
import TptIdentity.StoreModel

/-!
# Failures recorded at the same time

`RecordAuthFailure` reads a count and writes it in a second statement. Every failure is counted,
and no lock moves back, exactly when each call writes before the next one reads and the locks do
not get earlier (`failures_counted_iff`).
-/

namespace TptIdentity.Store

open Go

structure Failures where
  count : Nat
  lock : Option Int
deriving DecidableEq, Repr

def failures (key : Bytes) (db : DB) : Failures :=
  (db.authFailures.find key).elim ⟨0, none⟩ fun row => ⟨row.count, row.lockedUntil⟩

def Failures.next (now : Int) (f : Failures) : Failures :=
  ⟨f.count + 1, lockedUntil (f.count + 1) now⟩

/-- A lock is not moved to an earlier time; to lift it is to do so. -/
def NotEarlier (old new : Option Int) : Prop := ∀ t ∈ old, ∃ t' ∈ new, t ≤ t'

structure Failures.Keeps (old new : Failures) : Prop where
  count : old.count ≤ new.count
  lock : NotEarlier old.lock new.lock

theorem NotEarlier.refl (lock : Option Int) : NotEarlier lock lock := fun t ht =>
  ⟨t, ht, Int.le_refl t⟩

instance (old new : Option Int) : Decidable (NotEarlier old new) :=
  decidable_of_iff (∀ t ∈ old.toList, ∃ t' ∈ new.toList, t ≤ t') <| by
    simp only [Option.mem_toList]
    exact Iff.rfl

theorem keeps_next_iff (now : Int) (f : Failures) :
    f.Keeps (f.next now) ↔ NotEarlier f.lock (lockedUntil (f.count + 1) now) :=
  ⟨Failures.Keeps.lock, fun h => ⟨Nat.le_succ _, h⟩⟩

theorem readsWrites_recordAuthFailure (key : Bytes) (now : Int) :
    (recordAuthFailure key now).ReadsWrites (failures key) (Failures.next now) := by
  intro db
  refine ⟨rfl, fun db' => ?_⟩
  have hcount : (found ((db.authFailures.find key).map AuthFailure.count)).getD 0
      = (failures key db).count := by
    rw [failures]
    cases db.authFailures.find key with
    | none => rfl
    | some row => rfl
  have hfind := db'.authFailures.find_upsert_self AuthFailure.subjectOrEmail_merge
    (r := ⟨key, (failures key db).count + 1, now, lockedUntil ((failures key db).count + 1) now⟩)
    fun old hold => by rw [AuthFailure.merge, hold]
  rw [hcount, failures, hfind]
  rfl

def recording {ι : Type} (key : Bytes) (now : ι → Int) (db : DB) : Pool ι DB (Res Unit) :=
  Pool.start db fun i => recordAuthFailure key (now i)

/-- Every call is counted in the end, and no step lowers the count or moves the lock back. -/
structure AllCounted {ι : Type} [DecidableEq ι] (key : Bytes) (pool : Pool ι DB (Res Unit))
    (order : List ι) : Prop where
  total : (failures key ((order.map (·, none)).foldl Pool.step pool).state).count
    = (failures key pool.state).count + order.toFinset.card
  kept : EveryStep Pool.step
    (fun pool e => (failures key pool.state).Keeps (failures key (pool.step e).state))
    pool (order.map (·, none))

/-- Calls one after another, none of which computes an earlier lock than it finds. -/
def OneByOne {ι : Type} (now : ι → Int) (start : Failures) (order : List ι) : Prop :=
  ∃ calls, order = Cell.serial calls
    ∧ EveryStep (fun f i => f.next (now i))
        (fun f i => NotEarlier f.lock (lockedUntil (f.count + 1) (now i))) start calls

/-- No failure is lost exactly if the calls come one by one and none moves the lock back. -/
theorem failures_counted_iff {ι : Type} [DecidableEq ι] (key : Bytes) (now : ι → Int) (db : DB)
    (order : List ι) (htwice : ∀ i ∈ order, order.count i = 2) :
    AllCounted key (recording key now db) order ↔ OneByOne now (failures key db) order := by
  have hiff := Pool.counted_and_everyStep_iff (m := Failures.count) (R := Failures.Keeps)
    (f := fun i => Failures.next (now i)) (fun _ _ => rfl)
    (fun f => ⟨Nat.le_refl _, NotEarlier.refl _⟩)
    (fun i => readsWrites_recordAuthFailure key (now i)) db htwice
  simp only [keeps_next_iff] at hiff
  exact ⟨fun h => hiff.mp ⟨h.total, h.kept⟩, fun h => ⟨(hiff.mpr h).1, (hiff.mpr h).2⟩⟩

namespace FailureSample

def key : Bytes := "alice@example.com"

def now (i : Fin 6) : Int := i.val * second

def calls : List (Fin 6) := [0, 1, 2, 3, 4, 5]

def delayed : List (Fin 6) := 0 :: Cell.serial [1, 2, 3, 4, 5] ++ [0]

def after (order : List (Fin 6)) : Failures :=
  failures key ((order.map (·, none)).foldl Pool.step (recording key now .empty)).state

end FailureSample

open FailureSample in
theorem failures_counted_six :
    (∀ i ∈ Cell.serial calls, (Cell.serial calls).count i = 2)
      ∧ AllCounted key (recording key now .empty) (Cell.serial calls) := by
  have htwice : ∀ i ∈ Cell.serial calls, (Cell.serial calls).count i = 2 := by decide
  have hlocks : EveryStep (fun f i => f.next (now i))
      (fun f i => NotEarlier f.lock (lockedUntil (f.count + 1) (now i)))
      (failures key .empty) calls := by decide
  exact ⟨htwice, (failures_counted_iff key now .empty _ htwice).mpr ⟨calls, rfl, hlocks⟩⟩

open FailureSample in
/-- A call that was delayed leaves one failure of six, and no lock. -/
theorem failures_overwritten :
    (∀ i ∈ delayed, delayed.count i = 2)
      ∧ after delayed.dropLast = ⟨5, some (5 * second + 5 * minute)⟩
      ∧ after delayed = ⟨1, none⟩
      ∧ ¬AllCounted key (recording key now .empty) delayed := by
  have hafter : after delayed = ⟨1, none⟩ := by decide
  refine ⟨by decide, by decide, hafter, fun h => ?_⟩
  have htotal : (after delayed).count = 0 + 6 := h.total
  exact absurd htotal (by decide)

end TptIdentity.Store
