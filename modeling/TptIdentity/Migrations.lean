import Mathlib.Data.List.Sort
import TptIdentity.GoDecimal

/-!
# Migrations

`Up` applies the missing migrations in order, each in a transaction with its record. Whatever
fails, what was applied is a first part of what was missing (`up_resumes`), and over all runs of
`Up` and `Down` a migration is applied again only after it was rolled back (`applied_runAll`).
-/

namespace TptIdentity.Migrations

open Go List

structure Migration where
  version : Int
  name : Bytes
  sql : Bytes
deriving DecidableEq

/-- The rows of `schema_migrations`, and the migrations whose SQL took effect. -/
structure DB where
  versions : List Int
  applied : List Migration

/-- Which calls of an attempt fail, by their number. -/
abbrev Faults := Nat → Option Err

def Faults.drop (faults : Faults) (n : Nat) : Faults := fun i => faults (n + i)

/-- `apply`: a failure leaves the database as it was before the transaction. -/
def apply (faults : Faults) (m : Migration) (db : DB) : DB × Option Err :=
  match faults 0, faults 1, faults 2, faults 3 with
  | some e, _, _, _ => (db, some e)
  | none, some e, _, _ => (db, some (.wrap "exec: %w" [] e))
  | none, none, insert, commit =>
    if m.version ∈ db.versions then
      (db, some (.wrap "record version: %w" [] (.new "UNIQUE constraint failed" [])))
    else
      match insert, commit with
      | some e, _ => (db, some (.wrap "record version: %w" [] e))
      | none, some e => (db, some e)
      | none, none => (⟨db.versions ++ [m.version], db.applied ++ [m]⟩, none)

/-- The loop of `Up`; `applied` are the versions that were recorded when it started. -/
def applyAll (applied : List Int) : Faults → List Migration → DB → DB × Option Err
  | _, [], db => (db, none)
  | faults, m :: ms, db =>
    if m.version ∈ applied then applyAll applied faults ms db
    else
      match apply faults m db with
      | (db, none) => applyAll applied (faults.drop 4) ms db
      | (db, some e) =>
        (db, some (.wrap "migrations: apply v%03d %s: %w" [itoa m.version, m.name] e))

def sorted (ms : List Migration) : List Migration :=
  ms.insertionSort fun a b => a.version ≤ b.version

/-- The first calls are `ensureTable`, the two of `appliedVersions`, and `Load`. -/
def up (ms : List Migration) (faults : Faults) (db : DB) : DB × Option Err :=
  match faults 0, faults 1, faults 2, faults 3 with
  | some e, _, _, _ => (db, some e)
  | none, some e, _, _ => (db, some (.wrap "migrations: query applied: %w" [] e))
  | none, none, some e, _ => (db, some e)
  | none, none, none, some e => (db, some e)
  | none, none, none, none => applyAll db.versions (faults.drop 4) (sorted ms) db

def attempts (ms : List Migration) (l : List Faults) (db : DB) : DB :=
  l.foldl (fun db faults => (up ms faults db).1) db

/-! ## One attempt -/

theorem apply_cases (faults : Faults) (m : Migration) (db : DB) :
    (∃ e, apply faults m db = (db, some e))
      ∨ m.version ∉ db.versions
        ∧ apply faults m db = (⟨db.versions ++ [m.version], db.applied ++ [m]⟩, none) := by
  unfold apply
  split
  · exact .inl ⟨_, rfl⟩
  · exact .inl ⟨_, rfl⟩
  · split
    · exact .inl ⟨_, rfl⟩
    · next hnew =>
      split
      · exact .inl ⟨_, rfl⟩
      · exact .inl ⟨_, rfl⟩
      · exact .inr ⟨hnew, rfl⟩

theorem applyAll_cases (applied : List Int) {ms : List Migration}
    (hms : (ms.map Migration.version).Nodup) : ∀ (faults : Faults) (db : DB),
    (∀ v ∈ db.versions, v ∈ ms.map Migration.version → v ∈ applied) →
    ∃ new, new <+: ms.filter (·.version ∉ applied)
      ∧ (applyAll applied faults ms db).1
        = ⟨db.versions ++ new.map Migration.version, db.applied ++ new⟩
      ∧ ((applyAll applied faults ms db).2 = none → new = ms.filter (·.version ∉ applied)) := by
  induction ms with
  | nil => exact fun _ _ _ => ⟨[], prefix_rfl, by simp [applyAll], fun _ => rfl⟩
  | cons m ms ih =>
    intro faults db hdb
    rw [map_cons, nodup_cons] at hms
    rw [applyAll]
    split
    · next hm =>
      rw [filter_cons_of_neg (by simpa using hm)]
      exact ih hms.2 faults db fun v hv hmem => hdb v hv (mem_cons_of_mem _ hmem)
    · next hm =>
      rw [filter_cons_of_pos (by simpa using hm)]
      rcases apply_cases faults m db with ⟨e, he⟩ | ⟨hnew, he⟩
      · rw [he]
        exact ⟨[], nil_prefix, by simp, fun h => absurd h (by simp)⟩
      · rw [he]
        obtain ⟨new, hnew, hdb', hall⟩ := ih hms.2 (faults.drop 4)
          ⟨db.versions ++ [m.version], db.applied ++ [m]⟩ (by
            intro v hv hmem
            rcases mem_append.mp hv with hv | hv
            · exact hdb v hv (mem_cons_of_mem _ hmem)
            · exact absurd (mem_singleton.mp hv ▸ hmem) hms.1)
        refine ⟨m :: new, cons_prefix_cons.mpr ⟨rfl, hnew⟩, ?_, fun h => congrArg _ (hall h)⟩
        rw [hdb', append_assoc, append_assoc]
        rfl

/-! ## Attempts -/

def pending (ms : List Migration) (versions : List Int) : List Migration :=
  (sorted ms).filter (·.version ∉ versions)

/-- A first part of the missing migrations was applied and recorded. -/
def Resumable (ms : List Migration) (versions : List Int) (db : DB) : Prop :=
  db.applied <+: pending ms versions
    ∧ db.versions = versions ++ db.applied.map Migration.version

variable {ms : List Migration} {versions : List Int} {db : DB}

theorem nodup_sorted (hms : (ms.map Migration.version).Nodup) :
    ((sorted ms).map Migration.version).Nodup :=
  ((perm_insertionSort _ ms).map _).nodup_iff.mpr hms

theorem pairwise_pending (hms : (ms.map Migration.version).Nodup) :
    (pending ms versions).Pairwise (·.version < ·.version) := by
  have hle : (sorted ms).Pairwise (·.version ≤ ·.version) := pairwise_insertionSort _ ms
  have hne := pairwise_map.mp (nodup_sorted hms)
  refine Pairwise.filter _ ((hle.and hne).imp ?_)
  rintro a b ⟨hab, hne⟩
  exact lt_of_le_of_ne hab hne

theorem Resumable.up (hms : (ms.map Migration.version).Nodup) (h : Resumable ms versions db)
    (faults : Faults) : Resumable ms versions (up ms faults db).1
      ∧ ((up ms faults db).2 = none → (up ms faults db).1.applied = pending ms versions) := by
  obtain ⟨⟨rest, hrest⟩, hversions⟩ := h
  have hstays : Resumable ms versions db := ⟨⟨rest, hrest⟩, hversions⟩
  have hmissing : (sorted ms).filter (·.version ∉ db.versions) = rest := by
    have hsplit : (sorted ms).filter (·.version ∉ db.versions)
        = (db.applied ++ rest).filter (·.version ∉ db.applied.map Migration.version) := by
      rw [hrest, pending, filter_filter, hversions]
      simp only [mem_append, not_or, Bool.decide_and, Bool.and_comm]
    have hlt : (db.applied ++ rest).Pairwise (·.version < ·.version) :=
      hrest ▸ pairwise_pending hms
    rw [pairwise_append] at hlt
    rw [hsplit, filter_append, filter_eq_nil_iff.mpr, filter_eq_self.mpr, nil_append]
    · intro m hm
      simpa using fun m' hm' => (hlt.2.2 m' hm' m hm).ne
    · intro m hm
      simpa using ⟨m, hm, rfl⟩
  unfold Migrations.up
  split
  · exact ⟨hstays, fun h => absurd h (by simp)⟩
  · exact ⟨hstays, fun h => absurd h (by simp)⟩
  · exact ⟨hstays, fun h => absurd h (by simp)⟩
  · exact ⟨hstays, fun h => absurd h (by simp)⟩
  · obtain ⟨new, hnew, hdb, hall⟩ :=
      applyAll_cases db.versions (nodup_sorted hms) (faults.drop 4) db fun v hv _ => hv
    rw [hmissing] at hnew hall
    rw [hdb]
    refine ⟨⟨hrest ▸ (prefix_append_right_inj _).mpr hnew, ?_⟩, fun h => ?_⟩
    · rw [hversions, map_append, append_assoc]
    · rw [hall h, hrest]

theorem resumable_attempts (hms : (ms.map Migration.version).Nodup) {l : List Faults} :
    ∀ {db : DB}, Resumable ms versions db → Resumable ms versions (attempts ms l db) := by
  induction l with
  | nil => exact fun h => h
  | cons faults l ih => exact fun h => ih (h.up hms faults).1

/-- Attempts that fail anywhere and then succeed apply each open migration once, in order. -/
theorem up_resumes (hms : (ms.map Migration.version).Nodup) (versions : List Int) :
    (∀ l, let db := attempts ms l ⟨versions, []⟩
      db.versions = versions ++ db.applied.map Migration.version
        ∧ db.applied.Pairwise (·.version < ·.version)
        ∧ ∀ m ∈ db.applied, m ∈ ms ∧ m.version ∉ versions)
    ∧ (∀ l faults, (up ms faults (attempts ms l ⟨versions, []⟩)).2 = none →
      ∀ m ∈ ms, m.version ∉ versions → m ∈ (attempts ms (l ++ [faults]) ⟨versions, []⟩).applied)
    ∧ ∀ faults m db e, (apply faults m db).2 = some e → (apply faults m db).1 = db := by
  have hmem : ∀ m, m ∈ pending ms versions ↔ m ∈ ms ∧ m.version ∉ versions := by
    intro m
    rw [pending, mem_filter, sorted, mem_insertionSort, decide_eq_true_eq]
  have hrun : ∀ l, Resumable ms versions (attempts ms l ⟨versions, []⟩) :=
    fun l => resumable_attempts hms ⟨ nil_prefix, (append_nil _).symm⟩
  refine ⟨fun l => ?_, fun l faults hok m hm hnew => ?_, fun faults m db e he => ?_⟩
  · obtain ⟨happlied, hversions⟩ := hrun l
    exact ⟨hversions, (pairwise_pending hms).sublist happlied.sublist,
      fun m hm => (hmem m).mp (happlied.subset hm)⟩
  · rw [attempts, foldl_append]
    exact ((hrun l).up hms faults).2 hok ▸ (hmem m).mpr ⟨hm, hnew⟩
  · rcases apply_cases faults m db with ⟨e', he'⟩ | ⟨-, he'⟩
    · rw [he']
    · rw [he'] at he
      cases he

theorem up_resumes_after_failure :
    let ms : List Migration := [⟨2, [], []⟩, ⟨1, [], []⟩]
    ⟨2, [], []⟩ ∈ (attempts ms [fun i => if i = 9 then some (.new "disk I/O error" []) else none,
      fun _ => none] ⟨[], []⟩).applied :=
  (up_resumes (by decide) []).2.1 [_] _ rfl _ (by decide) (by decide)

/-! ## Rolling back -/

/-- `Down`: only the record of the latest version is removed. -/
def down (faults : Faults) (db : DB) : DB × Option Err :=
  match faults 0, faults 1, faults 2, db.versions.max? with
  | some e, _, _, _ => (db, some e)
  | none, some e, _, _ => (db, some (.wrap "migrations: query latest version: %w" [] e))
  | none, none, _, none => (db, some (.new "migrations: nothing to roll back" []))
  | none, none, some e, some v =>
    (db, some (.wrap "migrations: remove version record %d: %w" [itoa v] e))
  | none, none, none, some v => ({ db with versions := db.versions.filter (· ≠ v) }, none)

inductive Op where
  | up (faults : Faults)
  | down (faults : Faults)

def Op.run (ms : List Migration) (db : DB) : Op → DB × Option Err
  | .up faults => Migrations.up ms faults db
  | .down faults => Migrations.down faults db

def runAll (ms : List Migration) (ops : List Op) (db : DB) : DB :=
  ops.foldl (fun db op => (op.run ms db).1) db

def recorded (v : Int) (db : DB) : Nat := if v ∈ db.versions then 1 else 0

/-- How often the record of a version was removed. -/
def rolledBack (ms : List Migration) (v : Int) : DB → List Op → Nat
  | _, [] => 0
  | db, op :: ops =>
    (recorded v db - recorded v (op.run ms db).1) + rolledBack ms v (op.run ms db).1 ops

theorem Op.run_cases (hms : (ms.map Migration.version).Nodup) (db : DB) (op : Op) :
    (∃ new, new <+: pending ms db.versions
      ∧ (op.run ms db).1 = ⟨db.versions ++ new.map Migration.version, db.applied ++ new⟩)
    ∨ ∃ v, (op.run ms db).1 = { db with versions := db.versions.filter (· ≠ v) } := by
  have hstays : ∃ new, new <+: pending ms db.versions
      ∧ db = ⟨db.versions ++ new.map Migration.version, db.applied ++ new⟩ :=
    ⟨[], nil_prefix, by simp⟩
  cases op with
  | up faults =>
    rw [Op.run, Migrations.up]
    split
    · exact .inl hstays
    · exact .inl hstays
    · exact .inl hstays
    · exact .inl hstays
    · obtain ⟨new, hnew, hdb, -⟩ :=
        applyAll_cases db.versions (nodup_sorted hms) (faults.drop 4) db fun v hv _ => hv
      exact .inl ⟨new, hnew, hdb⟩
  | down faults =>
    rw [Op.run, Migrations.down]
    split
    · exact .inl hstays
    · exact .inl hstays
    · exact .inl hstays
    · exact .inl hstays
    · exact .inr ⟨_, rfl⟩

theorem Op.applied_run (hms : (ms.map Migration.version).Nodup) {m : Migration} (hm : m ∈ ms)
    (db : DB) (op : Op) : (op.run ms db).1.applied.count m + recorded m.version db
      = db.applied.count m + (recorded m.version db - recorded m.version (op.run ms db).1)
        + recorded m.version (op.run ms db).1 := by
  rcases op.run_cases hms db with ⟨new, hnew, hdb⟩ | ⟨v, hdb⟩
  · have hmem : ∀ m' ∈ new, m' ∈ ms ∧ m'.version ∉ db.versions := by
      intro m' hm'
      have hpending := hnew.subset hm'
      rwa [pending, mem_filter, sorted, mem_insertionSort, decide_eq_true_eq] at hpending
    have hversion : m.version ∈ new.map Migration.version ↔ m ∈ new := by
      refine ⟨fun h => ?_, mem_map_of_mem⟩
      obtain ⟨m', hm', heq⟩ := mem_map.mp h
      exact inj_on_of_nodup_map hms (hmem m' hm').1 hm heq ▸ hm'
    have hnodup : new.Nodup := by
      refine ((pairwise_pending hms).sublist hnew.sublist).imp ?_
      rintro a _ hlt rfl
      exact lt_irrefl _ hlt
    rw [hdb]
    simp only [recorded, mem_append, hversion, count_append, hnodup.count]
    by_cases hin : m ∈ new
    · simp [hin, (hmem m hin).2]
    · simp [hin]
  · rw [hdb]
    simp only [recorded, mem_filter]
    split
    · split <;> omega
    · next hout => simp [hout]

/-- A migration is applied again only after a `Down` has removed its record. -/
theorem applied_runAll (hms : (ms.map Migration.version).Nodup) {m : Migration} (hm : m ∈ ms) :
    ∀ (ops : List Op) (db : DB), (runAll ms ops db).applied.count m + recorded m.version db
      = db.applied.count m + rolledBack ms m.version db ops + recorded m.version (runAll ms ops db)
  | [], db => by simp [runAll, rolledBack]
  | op :: ops, db => by
    have hrest := applied_runAll hms hm ops (op.run ms db).1
    have hstep := op.applied_run hms hm db
    rw [rolledBack]
    change (runAll ms ops (op.run ms db).1).applied.count m + _
      = _ + recorded _ (runAll ms ops (op.run ms db).1)
    omega

/-- Rolled back and applied again, the second migration has taken effect twice. -/
theorem applied_twice :
    (runAll [⟨1, [], []⟩, ⟨2, [], []⟩] [.up fun _ => none, .down fun _ => none, .up fun _ => none]
      ⟨[], []⟩).applied.count ⟨2, [], []⟩ + recorded 2 ⟨[], []⟩ = 2 :=
  (applied_runAll (by decide) (by decide) _ _).trans (by decide +kernel)

end TptIdentity.Migrations
