import Mathlib.Algebra.Group.Nat.Defs
import Mathlib.Data.List.Induction
import TptIdentity.GoMap

/-!
# Marketplace

The key of an entry is the issuer, a colon and the schema, and a DID has colons of its own. The
counts are per pair exactly if no two pairs have the same key and no count leaves `int64`
(`perPair_iff`).
-/

namespace TptIdentity.Marketplace

open Go List

structure Entry where
  issuerDID : Bytes
  schemaID : Bytes
  schemaName : Bytes
  issuedCount : Int64
deriving DecidableEq

def key (issuerDID schemaID : Bytes) : Bytes := issuerDID ++ ":" ++ schemaID

def register (issuerDID schemaID schemaName : Bytes) (entries : Map Entry) : Map Entry :=
  match entries.get (key issuerDID schemaID) with
  | some _ => entries
  | none => entries.set (key issuerDID schemaID) ⟨issuerDID, schemaID, schemaName, 0⟩

def recordIssuance (issuerDID schemaID : Bytes) (entries : Map Entry) : Map Entry :=
  let e := (entries.get (key issuerDID schemaID)).getD ⟨issuerDID, schemaID, [], 0⟩
  entries.set (key issuerDID schemaID) { e with issuedCount := e.issuedCount + 1 }

def list (entries : Map Entry) : List Entry := entries.entries.map Prod.snd

/-! ## Runs -/

inductive Call where
  | register (issuerDID schemaID schemaName : Bytes)
  | recordIssuance (issuerDID schemaID : Bytes)

namespace Call

def pair : Call → Bytes × Bytes
  | register issuerDID schemaID _ => (issuerDID, schemaID)
  | recordIssuance issuerDID schemaID => (issuerDID, schemaID)

def records : Call → Bool
  | register .. => false
  | recordIssuance .. => true

def run : Call → Map Entry → Map Entry
  | register issuerDID schemaID schemaName => Marketplace.register issuerDID schemaID schemaName
  | recordIssuance issuerDID schemaID => Marketplace.recordIssuance issuerDID schemaID

def key (c : Call) : Bytes := Marketplace.key c.pair.1 c.pair.2

end Call

def Entry.pair (e : Entry) : Bytes × Bytes := (e.issuerDID, e.schemaID)

def runAll (calls : List Call) : Map Entry := calls.foldl (fun r c => c.run r) .empty

def issued (calls : List Call) (p : Bytes × Bytes) : Nat :=
  calls.countP fun c => c.records && c.pair == p

/-- One entry for each pair of the calls and for no other, with its number of issuances. -/
def PerPair (calls : List Call) : Prop :=
  ∀ p, ((list (runAll calls)).map Entry.pair).count p = (if p ∈ calls.map Call.pair then 1 else 0)
    ∧ ∀ e ∈ list (runAll calls), e.pair = p → e.issuedCount.toInt = issued calls p

def recorded (calls : List Call) (k : Bytes) : Nat :=
  calls.countP fun c => c.records && c.key == k

theorem get_run_of_ne {c : Call} {k : Bytes} (h : k ≠ c.key) (r : Map Entry) :
    (c.run r).get k = r.get k := by
  cases c with
  | register issuerDID schemaID schemaName =>
    rw [Call.run, register]
    split
    · rfl
    · rw [Map.get_set]
      exact if_neg h
  | recordIssuance issuerDID schemaID =>
    rw [Call.run, recordIssuance, Map.get_set]
    exact if_neg h

def Entry.view (e : Entry) : (Bytes × Bytes) × Int64 := (e.pair, e.issuedCount)

theorem get_run (c : Call) (r : Map Entry) : ((c.run r).get c.key).map Entry.view
    = let v := ((r.get c.key).map Entry.view).getD (c.pair, 0)
      some (v.1, v.2 + if c.records then 1 else 0) := by
  cases c with
  | register issuerDID schemaID schemaName =>
    simp only [Call.key, Call.pair, Call.run, Call.records, register]
    cases hget : r.get (key issuerDID schemaID) with
    | none => simp [Map.get_set, Entry.view, Entry.pair]
    | some e => simp [hget, Entry.view]
  | recordIssuance issuerDID schemaID =>
    simp only [Call.key, Call.pair, Call.run, Call.records, recordIssuance, Map.get_set, if_pos]
    cases r.get (key issuerDID schemaID) with
    | none => rfl
    | some e => rfl

/-- The entry of a key has the pair of its first call, and all its issuances. -/
theorem get_runAll (calls : List Call) (k : Bytes) : ((runAll calls).get k).map Entry.view
    = (calls.find? fun c => c.key == k).map fun c => (c.pair, Int64.ofNat (recorded calls k)) := by
  induction calls using List.reverseRecOn with
  | nil => rfl
  | append_singleton calls c ih =>
    rw [runAll, foldl_append, find?_append, recorded, countP_append]
    change ((c.run (runAll calls)).get k).map _ = _
    by_cases hk : c.key = k
    · subst hk
      rw [get_run, ih]
      cases hfind : calls.find? fun c' => c'.key == c.key with
      | none =>
        have hzero : recorded calls c.key = 0 := by
          rw [recorded, countP_eq_zero]
          intro c' hc'
          simpa using fun _ => find?_eq_none.mp hfind c' hc'
        rw [← recorded, hzero]
        cases hrec : c.records with
        | false => simp [hrec]
        | true => simp [hrec]
      | some c' =>
        cases hrec : c.records with
        | false => simp [hrec, recorded]
        | true => simp [hrec, recorded]
    · rw [get_run_of_ne (Ne.symm hk), ih]
      simp [hk, recorded]

variable {calls : List Call} {e : Entry}

theorem exists_call {k : Bytes} (h : (runAll calls).get k = some e) :
    ∃ c ∈ calls, c.key = k ∧ e.pair = c.pair
      ∧ e.issuedCount = Int64.ofNat (recorded calls c.key) := by
  have hview := get_runAll calls k
  rw [h, Option.map_some, eq_comm, Option.map_eq_some_iff] at hview
  obtain ⟨c, hfind, hc⟩ := hview
  obtain rfl : c.key = k := by simpa using find?_some hfind
  obtain ⟨hpair, hcount⟩ := Prod.mk.inj hc
  exact ⟨c, mem_of_find?_eq_some hfind, rfl, hpair.symm, hcount.symm⟩

theorem get_of_mem (h : e ∈ list (runAll calls)) :
    (runAll calls).get (key e.pair.1 e.pair.2) = some e := by
  obtain ⟨⟨k, e⟩, hmem, rfl⟩ := mem_map.mp h
  have hget := Map.get_eq_some_iff.mpr hmem
  obtain ⟨c, -, rfl, hpair, -⟩ := exists_call hget
  rwa [hpair]

theorem exists_entry {c : Call} (h : c ∈ calls) :
    ∃ e ∈ list (runAll calls), (runAll calls).get c.key = some e := by
  have hview := get_runAll calls c.key
  cases hget : (runAll calls).get c.key with
  | none =>
    rw [hget, Option.map_none, eq_comm, Option.map_eq_none_iff, find?_eq_none] at hview
    exact absurd (beq_self_eq_true _) (hview c h)
  | some e => exact ⟨e, mem_map_of_mem (Map.get_eq_some_iff.mp hget), rfl⟩

theorem nodup_pairs (calls : List Call) : ((list (runAll calls)).map Entry.pair).Nodup := by
  have hkeys : ((list (runAll calls)).map Entry.pair).map (fun p => key p.1 p.2)
      = (runAll calls).entries.map Prod.fst := by
    rw [list, map_map, map_map]
    refine map_congr_left ?_
    intro x hx
    obtain ⟨c, -, hkey, hpair, -⟩ := exists_call (Map.get_eq_some_iff.mpr hx)
    rw [Function.comp_apply, Function.comp_apply, hpair]
    exact hkey
  exact Nodup.of_map _ (hkeys ▸ (runAll calls).sorted.nodup)

/-- Counts are per pair exactly if no two pairs share a key and no count overflows. -/
theorem perPair_iff (calls : List Call) : PerPair calls ↔
    (∀ c ∈ calls, ∀ c' ∈ calls, c.key = c'.key → c.pair = c'.pair)
      ∧ ∀ p, issued calls p < 2 ^ 63 := by
  constructor
  · intro h
    have hone : ∀ c ∈ calls, ∃ e ∈ list (runAll calls), e.pair = c.pair := by
      intro c hc
      have hcount := (h c.pair).1
      rw [if_pos (mem_map_of_mem hc)] at hcount
      exact mem_map.mp (count_pos_iff.mp (hcount ▸ Nat.one_pos))
    constructor
    · intro c hc c' hc' hkey
      obtain ⟨e, he, hpair⟩ := hone c hc
      obtain ⟨e', he', hpair'⟩ := hone c' hc'
      have hget := get_of_mem he
      have hget' := get_of_mem he'
      rw [hpair] at hget
      rw [hpair', ← Call.key, ← hkey, Call.key, hget] at hget'
      rw [← hpair, ← hpair', Option.some.inj hget']
    · intro p
      by_contra! hbig
      obtain ⟨c, hc, hrec⟩ := countP_pos_iff.mp (show 0 < issued calls p by omega)
      obtain ⟨e, he, hpair⟩ := hone c hc
      obtain rfl : c.pair = p := eq_of_beq (Bool.and_eq_true_iff.mp hrec).2
      have hcount := (h c.pair).2 e he hpair
      have hlt := e.issuedCount.toInt_lt
      omega
  · rintro ⟨hinj, hbound⟩ p
    constructor
    · split
      · next hp =>
        obtain ⟨c, hc, rfl⟩ := mem_map.mp hp
        obtain ⟨e, he, hget⟩ := exists_entry hc
        obtain ⟨c', hc', hkey, hpair, -⟩ := exists_call hget
        rw [← hinj c' hc' c hc hkey, ← hpair]
        exact count_eq_one_of_mem (nodup_pairs calls) (mem_map_of_mem he)
      · next hp =>
        refine count_eq_zero.mpr ?_
        intro hmem
        obtain ⟨e, he, rfl⟩ := mem_map.mp hmem
        obtain ⟨c, hc, -, hpair, -⟩ := exists_call (get_of_mem he)
        exact hp (hpair ▸ mem_map_of_mem hc)
    · rintro e he rfl
      obtain ⟨c, hc, -, hpair, hcount⟩ := exists_call (get_of_mem he)
      have hissued : recorded calls c.key = issued calls c.pair := by
        refine countP_congr ?_
        intro c' hc'
        rw [Bool.and_eq_true_iff, Bool.and_eq_true_iff, beq_iff_eq, beq_iff_eq]
        refine and_congr_right' ⟨hinj c' hc' c hc, ?_⟩
        intro hsame
        rw [Call.key, hsame, ← Call.key]
      rw [hcount, hissued, hpair]
      exact Int64.toInt_ofNat_of_lt (hbound c.pair)

theorem not_perPair_colon : ¬ PerPair [.recordIssuance "did:web:a" "b",
    .recordIssuance "did:web" "a:b"] := by
  intro h
  exact absurd (h ("did:web", "a:b")).1 (by decide +kernel)

end TptIdentity.Marketplace
