import TptIdentity.GoMap

/-!
# The resolver's cache

`Resolve` looks a document up under the lock, fetches it without, and stores it under the lock
again. So a fetch that is under way during an invalidation puts the old document back
(`not_respected`). In a schedule without such a store, nobody is answered with a document from
before an invalidation (`respected_of_not_spanned`). In every schedule each answer was fetched
for its ID and is younger than the TTL (`genuine_run`).

A schedule is a list of locked steps and starts of fetches, of any number of calls; its time is
the number of the step. Two invariants carry the proofs: a cached document was stored after the
deletions of its ID (`Coherent`), and whatever is cached, missed or answered stands for steps
of the schedule (`Traced`).
-/

namespace TptIdentity.Resolver

open Go List Function Option

variable {δ : Type}

/-- A cached document, with when its fetch began and when it was stored. -/
structure Entry (δ : Type) where
  doc : δ
  expires : Int
  began : Nat
  stored : Nat

/-- What `Resolve` returned. `cached` is when the document was stored, if it was cached. -/
structure Answer (δ : Type) where
  id : Bytes
  doc : δ
  start : Nat
  began : Nat
  cached : Option Nat

structure Invalidation where
  id : Bytes
  called : Nat
  deleted : Nat
  returned : Nat

/-- A call that found no document: its ID, its start, and when its fetch began. -/
structure Miss where
  id : Bytes
  start : Nat
  began : Option Nat

structure State (δ : Type) where
  clock : Nat
  cache : Map (Entry δ)
  misses : Nat → Option Miss
  answers : List (Answer δ)
  invalidations : List Invalidation

def State.new : State δ := ⟨0, .empty, fun _ => none, [], []⟩

/-- A fetch that fails is one that is never stored. -/
inductive Step (δ : Type) where
  | lookup (r : Nat) (id : Bytes) (start : Nat) (now : Int)
  | fetch (r : Nat)
  | store (r : Nat) (doc : δ) (now : Int)
  | invalidate (id : Bytes) (called returned : Nat)
  | purge (now : Int)

namespace State

def lookup (r : Nat) (id : Bytes) (start : Nat) (now : Int) (s : State δ) : State δ :=
  match s.cache.get id with
  | some e =>
    if now < e.expires then
      { s with answers := ⟨id, e.doc, start, e.began, some e.stored⟩ :: s.answers }
    else { s with misses := update s.misses r (some ⟨id, start, none⟩) }
  | none => { s with misses := update s.misses r (some ⟨id, start, none⟩) }

/-- The locked step or the start of a fetch, if the call can make it now. -/
def act (ttl : Int) (s : State δ) : Step δ → State δ
  | .lookup r id start now =>
    if start ≤ s.clock then s.lookup r id start now else s
  | .fetch r =>
    match s.misses r with
    | some ⟨id, start, none⟩ =>
      { s with misses := update s.misses r (some ⟨id, start, some s.clock⟩) }
    | _ => s
  | .store r doc now =>
    match s.misses r with
    | some ⟨id, start, some began⟩ =>
      { s with
        cache := s.cache.set id ⟨doc, now + ttl, began, s.clock⟩
        misses := update s.misses r none
        answers := ⟨id, doc, start, began, none⟩ :: s.answers }
    | _ => s
  | .invalidate id called returned =>
    if called ≤ s.clock ∧ s.clock ≤ returned then
      { s with
        cache := s.cache.delete id
        invalidations := ⟨id, called, s.clock, returned⟩ :: s.invalidations }
    else s
  | .purge now =>
    { s with cache := s.cache.filterKeys fun k => (s.cache.get k).all fun e => now ≤ e.expires }

def step (ttl : Int) (s : State δ) (e : Step δ) : State δ :=
  { s.act ttl e with clock := s.clock + 1 }

def run (ttl : Int) (schedule : List (Step δ)) : State δ := schedule.foldl (step ttl) .new

/-- No call that started after an invalidation is answered with a document whose fetch began before
it. -/
def Respected (s : State δ) : Prop :=
  ∀ a ∈ s.answers, ∀ v ∈ s.invalidations, v.id = a.id → v.returned < a.start →
    ¬a.began < v.called

/-- Cached documents were stored after the invalidations of their ID, as far as they had returned.
-/
structure Coherent (s : State δ) : Prop where
  invalidations : ∀ v ∈ s.invalidations,
    v.called ≤ v.deleted ∧ v.deleted ≤ v.returned ∧ v.deleted < s.clock
  cache : ∀ id e, s.cache.get id = some e → ∀ v ∈ s.invalidations, v.id = id →
    v.deleted < e.stored
  misses : ∀ r m, s.misses r = some m → m.start < s.clock ∧ ∀ t ∈ m.began, m.start ≤ t
  own : ∀ a ∈ s.answers, a.start < s.clock ∧ (a.cached = none → a.start ≤ a.began)
  cached : ∀ a ∈ s.answers, ∀ t ∈ a.cached, ∀ v ∈ s.invalidations, v.id = a.id →
    v.returned < a.start → v.deleted < t

variable {s : State δ}

theorem Coherent.tick (h : Coherent s) : Coherent { s with clock := s.clock + 1 } where
  invalidations v hv := ⟨(h.invalidations v hv).1, (h.invalidations v hv).2.1,
    Nat.lt_succ_of_lt (h.invalidations v hv).2.2⟩
  cache := h.cache
  misses r m hm := ⟨Nat.lt_succ_of_lt (h.misses r m hm).1, (h.misses r m hm).2⟩
  own a ha := ⟨Nat.lt_succ_of_lt (h.own a ha).1, (h.own a ha).2⟩
  cached := h.cached

theorem Coherent.miss (h : Coherent s) (r : Nat) {m : Option Miss}
    (hm : ∀ m' ∈ m, m'.start ≤ s.clock ∧ ∀ t ∈ m'.began, m'.start ≤ t) :
    Coherent { s with misses := update s.misses r m, clock := s.clock + 1 } where
  __ := h.tick
  misses r' m' hm' := by
    change update s.misses r m r' = some m' at hm'
    rw [update_apply] at hm'
    split at hm'
    · exact ⟨Nat.lt_succ_of_le (hm m' hm').1, (hm m' hm').2⟩
    · exact h.tick.misses r' m' hm'

theorem Coherent.lookup (h : Coherent s) (r : Nat) (id : Bytes) {start : Nat} (now : Int)
    (hstart : start ≤ s.clock) :
    Coherent { s.lookup r id start now with clock := s.clock + 1 } := by
  unfold State.lookup
  split
  · next e he =>
    split
    · exact { h.tick with
        own := forall_mem_cons.mpr ⟨⟨Nat.lt_succ_of_le hstart, by simp⟩, h.tick.own⟩
        cached := forall_mem_cons.mpr ⟨fun t ht v hv hid _ =>
          some.inj ht ▸ h.cache id e he v hv hid, h.cached⟩ }
    · exact h.miss r (by simpa using hstart)
  · exact h.miss r (by simpa using hstart)

theorem Coherent.step (h : Coherent s) (ttl : Int) (e : Step δ) : Coherent (s.step ttl e) := by
  cases e with
  | lookup r id start now =>
    simp only [State.step, act]
    split
    · next hstart => exact h.lookup r id now hstart
    · exact h.tick
  | fetch r =>
    simp only [State.step, act]
    split
    · next id start hr =>
      have hstart := (h.misses r _ hr).1
      exact h.miss r (by simpa using hstart.le)
    · exact h.tick
  | store r doc now =>
    simp only [State.step, act]
    split
    · next id start began hr =>
      obtain ⟨hstart, hbegan⟩ := h.misses r _ hr
      exact { h.miss r (m := none) (by simp) with
        cache := by
          intro id' e he v hv hid
          rw [Map.get_set] at he
          split at he
          · exact some.inj he ▸ (h.invalidations v hv).2.2
          · exact h.cache id' e he v hv hid
        own := forall_mem_cons.mpr
          ⟨⟨Nat.lt_succ_of_lt hstart, fun _ => hbegan began rfl⟩, h.tick.own⟩
        cached := forall_mem_cons.mpr ⟨by simp, h.cached⟩ }
    · exact h.tick
  | invalidate id called returned =>
    simp only [State.step, act]
    split
    · next hcall =>
      exact { h.tick with
        invalidations := forall_mem_cons.mpr
          ⟨⟨hcall.1, hcall.2, Nat.lt_succ_self _⟩, h.tick.invalidations⟩
        cache := by
          intro id' e he
          rw [Map.get_delete] at he
          split at he
          · cases he
          · next hne =>
            exact forall_mem_cons.mpr ⟨fun hid => absurd hid.symm hne, h.cache id' e he⟩
        cached := by
          intro a ha t ht
          refine forall_mem_cons.mpr ⟨fun _ hret => ?_, h.cached a ha t ht⟩
          -- a call that was answered before has started before this one returns
          exact absurd ((h.own a ha).1.trans_le hcall.2) hret.asymm }
    · exact h.tick
  | purge now =>
    refine { h.tick with cache := fun id e he => h.cache id e ?_ }
    simp only [State.step, act, Map.get_filterKeys] at he
    split at he
    · exact he
    · cases he

theorem coherent_run (ttl : Int) (schedule : List (Step δ)) : Coherent (run ttl schedule) := by
  have hnew : Coherent (.new : State δ) :=
    ⟨by simp [State.new], by simp [State.new], by simp [State.new], by simp [State.new],
      by simp [State.new]⟩
  exact List.foldlRecOn schedule _ hnew fun _ h e _ => h.step ttl e

/-! ## Where answers come from -/

/-- Call `r` missed the ID, began its fetch and stored this document, in this order. -/
structure Fetched (S : List (Step δ)) (r : Nat) (id : Bytes) (start : Nat) (doc : δ)
    (began stored : Nat) (now : Int) : Prop where
  missed : ∃ i < began, ∃ seen, S[i]? = some (.lookup r id start seen)
  fetch : S[began]? = some (.fetch r)
  store : began < stored ∧ S[stored]? = some (.store r doc now)

/-- Every document was fetched for the ID it is returned for: by the call itself, or by one that
stored it before the look-up, less than `ttl` ago. -/
def Genuine (S : List (Step δ)) (ttl : Int) (s : State δ) : Prop :=
  ∀ a ∈ s.answers, match a.cached with
    | none => ∃ r stored now, Fetched S r a.id a.start a.doc a.began stored now
    | some stored => ∃ r start now, Fetched S r a.id start a.doc a.began stored now
      ∧ ∃ j > stored, ∃ r' seen, S[j]? = some (.lookup r' a.id a.start seen) ∧ seen < now + ttl

structure Traced (S : List (Step δ)) (ttl : Int) (s : State δ) : Prop where
  misses : ∀ r m, s.misses r = some m → ∃ i < s.clock,
    (∃ seen, S[i]? = some (.lookup r m.id m.start seen))
      ∧ ∀ b ∈ m.began, i < b ∧ b < s.clock ∧ S[b]? = some (.fetch r)
  cache : ∀ id e, s.cache.get id = some e → e.stored < s.clock
    ∧ ∃ r start now, Fetched S r id start e.doc e.began e.stored now ∧ e.expires = now + ttl
  invalidations : ∀ v ∈ s.invalidations, S[v.deleted]? = some (.invalidate v.id v.called v.returned)
  answers : Genuine S ttl s

variable {S : List (Step δ)} {ttl : Int} {s : State δ}

theorem Traced.tick (h : Traced S ttl s) : Traced S ttl { s with clock := s.clock + 1 } where
  misses r m hm := by
    obtain ⟨i, hi, hlookup, hbegan⟩ := h.misses r m hm
    exact ⟨i, Nat.lt_succ_of_lt hi, hlookup, fun b hb =>
      ⟨(hbegan b hb).1, Nat.lt_succ_of_lt (hbegan b hb).2.1, (hbegan b hb).2.2⟩⟩
  cache id e he := ⟨Nat.lt_succ_of_lt (h.cache id e he).1, (h.cache id e he).2⟩
  invalidations := h.invalidations
  answers := h.answers

theorem Traced.miss (h : Traced S ttl s) (r : Nat) {m : Option Miss}
    (hm : ∀ m' ∈ m, ∃ i < s.clock + 1, (∃ seen, S[i]? = some (.lookup r m'.id m'.start seen))
      ∧ ∀ b ∈ m'.began, i < b ∧ b < s.clock + 1 ∧ S[b]? = some (.fetch r)) :
    Traced S ttl { s with misses := update s.misses r m, clock := s.clock + 1 } where
  __ := h.tick
  misses r' m' hm' := by
    change update s.misses r m r' = some m' at hm'
    rw [update_apply] at hm'
    split at hm'
    · next hr => exact hr ▸ hm m' hm'
    · exact h.tick.misses r' m' hm'

theorem Traced.step (h : Traced S ttl s) {e : Step δ} (he : S[s.clock]? = some e) :
    Traced S ttl (s.step ttl e) := by
  cases e with
  | lookup r id start now =>
    have hmiss : Traced S ttl { s with
        misses := update s.misses r (some ⟨id, start, none⟩), clock := s.clock + 1 } :=
      h.miss r fun m' hm' => some.inj hm' ▸
        ⟨s.clock, Nat.lt_succ_self _, ⟨now, he⟩, fun b hb => by cases hb⟩
    simp only [State.step, act, State.lookup]
    split
    · split
      · next e hget =>
        split
        · next hfresh =>
          obtain ⟨hstored, r', start', now', hfetched, hexpires⟩ := h.cache id e hget
          exact { h.tick with
            answers := forall_mem_cons.mpr ⟨⟨r', start', now', hfetched, s.clock, hstored, r, now,
              he, hexpires ▸ hfresh⟩, h.answers⟩ }
        · exact hmiss
      · exact hmiss
    · exact h.tick
  | fetch r =>
    simp only [State.step, act]
    split
    · next id start hr =>
      obtain ⟨i, hi, hlookup, -⟩ := h.misses r _ hr
      exact h.miss r fun m' hm' => some.inj hm' ▸ ⟨i, Nat.lt_succ_of_lt hi, hlookup,
        fun b hb => some.inj hb ▸ ⟨hi, Nat.lt_succ_self _, he⟩⟩
    · exact h.tick
  | store r doc now =>
    simp only [State.step, act]
    split
    · next id start began hr =>
      obtain ⟨i, hi, hlookup, hbegan⟩ := h.misses r _ hr
      obtain ⟨hib, hbc, hfetch⟩ := hbegan began rfl
      have hfetched : Fetched S r id start doc began s.clock now :=
        ⟨⟨i, hib, hlookup⟩, hfetch, hbc, he⟩
      exact { h.miss r (m := none) (by simp) with
        cache := by
          intro id' e he
          rw [Map.get_set] at he
          split at he
          · next hid =>
            subst hid
            exact some.inj he ▸ ⟨Nat.lt_succ_self _, r, start, now, hfetched, rfl⟩
          · exact h.tick.cache id' e he
        answers := forall_mem_cons.mpr ⟨⟨r, s.clock, now, hfetched⟩, h.answers⟩ }
    · exact h.tick
  | invalidate id called returned =>
    simp only [State.step, act]
    split
    · refine { h.tick with
        invalidations := forall_mem_cons.mpr ⟨he, h.invalidations⟩
        cache := fun id' e he => h.tick.cache id' e ?_ }
      rw [Map.get_delete] at he
      split at he
      · cases he
      · exact he
    · exact h.tick
  | purge now =>
    refine { h.tick with cache := fun id e he => h.tick.cache id e ?_ }
    simp only [State.step, act, Map.get_filterKeys] at he
    split at he
    · exact he
    · cases he

theorem traced_foldl {rest : List (Step δ)} : ∀ {s : State δ} (done : List (Step δ)),
    S = done ++ rest → s.clock = done.length → Traced S ttl s →
    Traced S ttl (rest.foldl (step ttl) s) := by
  induction rest with
  | nil => exact fun _ _ _ h => h
  | cons e rest ih =>
    intro s done hS hclock h
    refine ih (done ++ [e]) (by simp [hS]) ?_ (h.step ?_)
    · simp [State.step, hclock]
    · simp [hS, hclock]

theorem traced_run (ttl : Int) (schedule : List (Step δ)) :
    Traced schedule ttl (run ttl schedule) :=
  traced_foldl [] rfl rfl ⟨by simp [State.new], by simp [State.new], by simp [State.new],
    by simp [Genuine, State.new]⟩

/-- Every answer of every schedule was fetched for its ID, and a cached one is younger than the
TTL. -/
theorem genuine_run (ttl : Int) (schedule : List (Step δ)) :
    (run ttl schedule).Genuine schedule ttl := (traced_run ttl schedule).answers

/-! ## Invalidation -/

/-- A document is stored after the deletion by an invalidation that was called after the fetch of
the document began. -/
def Spanned (S : List (Step δ)) : Prop :=
  ∃ r id start doc began stored now, Fetched S r id start doc began stored now
    ∧ ∃ called deleted returned, began < called ∧ called ≤ deleted ∧ deleted < stored
      ∧ S[deleted]? = some (.invalidate id called returned)

/-- Invalidation is respected in every schedule in which no store is overtaken by one. -/
theorem respected_of_not_spanned (ttl : Int) (schedule : List (Step δ))
    (hspan : ¬Spanned schedule) : (run ttl schedule).Respected := by
  have h := coherent_run ttl schedule
  have htraced := traced_run ttl schedule
  intro a ha v hv hid hret hbegan
  obtain ⟨hcalled, hreturned, -⟩ := h.invalidations v hv
  have hanswer := htraced.answers a ha
  cases hc : a.cached with
  | none =>
    -- a fetched document is not older than the call
    have hown := (h.own a ha).2 hc
    omega
  | some stored =>
    rw [hc] at hanswer
    obtain ⟨r, start, now, hfetched, -⟩ := hanswer
    refine hspan ⟨r, a.id, start, a.doc, a.began, stored, now, hfetched, v.called, v.deleted,
      v.returned, hbegan, hcalled, h.cached a ha stored hc v hv hid hret, ?_⟩
    exact hid ▸ htraced.invalidations v hv

namespace Sample

def renewed : List (Step Nat) :=
  [.lookup 0 "did:web:a" 0 0, .fetch 0, .store 0 1 0, .invalidate "did:web:a" 3 3,
    .lookup 1 "did:web:a" 4 1, .fetch 1, .store 1 2 1, .lookup 2 "did:web:a" 7 2]

theorem not_spanned_renewed : ¬Spanned renewed := by
  rintro ⟨r, id, start, doc, began, stored, now, hfetched, called, deleted, returned, hbegan,
    hdeleted, hstored, hinvalidate⟩
  have hplace : ∀ {i : Nat} {e : Step Nat}, renewed[i]? = some e → (e, i) ∈ renewed.zipIdx :=
    fun h => List.mem_zipIdx_iff_getElem?.mpr h
  have hfetch := hplace hfetched.fetch
  have hstore := hplace hfetched.store.2
  have hdelete := hplace hinvalidate
  simp [renewed] at hfetch hstore hdelete
  omega

end Sample

theorem respected_renewed :
    (run 300 Sample.renewed).Respected
      ∧ (run 300 Sample.renewed).answers.map Answer.doc = [2, 2, 1] :=
  ⟨respected_of_not_spanned 300 _ Sample.not_spanned_renewed, by decide⟩

/-- The first call stores what it began to fetch before the invalidation, and the second call gets
it. -/
theorem not_respected :
    ¬(run 300 [.lookup 0 "did:web:a" 0 0, .fetch 0, .invalidate "did:web:a" 2 2,
      .store 0 () 1, .lookup 1 "did:web:a" 4 2] : State Unit).Respected := by
  unfold Respected
  decide +kernel

end State

end TptIdentity.Resolver
