import Mathlib.Algebra.BigOperators.Group.Finset.Basic
import Mathlib.Data.Finset.Card
import TptIdentity.GoPool

/-!
# Reading and writing back

Calls that read a cell, and in a second step write back what they make of it (`Cell.step`). If
each write counts one more than was read, no count is lost exactly when the calls came one after
another (`counted_and_everyStep_iff`).
-/

namespace Go

open List Function

structure Cell (ι ν : Type) where
  value : ν
  seen : ι → Option ν

namespace Cell

variable {ι ν : Type}

def serial (calls : List ι) : List ι := calls.flatMap fun i => [i, i]

theorem serial_append (calls : List ι) (i : ι) :
    serial (calls ++ [i]) = serial calls ++ [i, i] := by
  rw [serial, flatMap_append, flatMap_singleton, ← serial]

theorem length_serial (calls : List ι) : (serial calls).length = 2 * calls.length := by
  induction calls with
  | nil => rfl
  | cons i calls ih =>
    rw [serial, flatMap_cons, ← serial, length_append, ih, length_cons]
    simp only [length_cons, length_nil]
    omega

variable {m : ν → Nat} {k : Nat} {R : ν → ν → Prop}

theorem count_foldl_serial {f : ι → ν → ν} (hcounts : ∀ i v, m (f i v) = m v + 1) (v : ν)
    (calls : List ι) : m (calls.foldl (fun v i => f i v) v) = m v + calls.length := by
  induction calls generalizing v with
  | nil => rfl
  | cons i calls ih =>
    rw [foldl_cons, ih, hcounts, length_cons]
    omega

variable [DecidableEq ι]

def step (f : ι → ν → ν) (c : Cell ι ν) (i : ι) : Cell ι ν :=
  match c.seen i with
  | none => ⟨c.value, update c.seen i (some c.value)⟩
  | some v => ⟨f i v, update c.seen i none⟩

def fresh (v : ν) : Cell ι ν := ⟨v, fun _ => none⟩

variable {f : ι → ν → ν} {c : Cell ι ν} {i : ι}

theorem step_of_unread (h : c.seen i = none) :
    c.step f i = ⟨c.value, update c.seen i (some c.value)⟩ := by
  rw [step, h]

theorem step_of_read {v : ν} (h : c.seen i = some v) :
    c.step f i = ⟨f i v, update c.seen i none⟩ := by
  rw [step, h]

theorem seen_step_of_unread (h : c.seen i = none) : (c.step f i).seen i = some c.value := by
  rw [step_of_unread h]
  exact update_self ..

theorem value_step_of_read {v : ν} (h : c.seen i = some v) : (c.step f i).value = f i v := by
  rw [step_of_read h]

theorem seen_step_of_ne {j : ι} (h : j ≠ i) : (c.step f i).seen j = c.seen j := by
  cases hseen : c.seen i with
  | none =>
    rw [step_of_unread hseen]
    exact update_of_ne h ..
  | some v =>
    rw [step_of_read hseen]
    exact update_of_ne h ..

variable {order : List ι}

theorem seen_foldl_of_notMem (h : i ∉ order) : (order.foldl (step f) c).seen i = c.seen i := by
  induction order generalizing c with
  | nil => rfl
  | cons j order ih =>
    rw [mem_cons, not_or] at h
    rw [foldl_cons, ih h.2, seen_step_of_ne h.1]

/-! ## Counts -/

section Counts

variable {m : ν → Nat} (hcounts : ∀ i v, m (f i v) = m v + 1)

/-- After `n` steps from the count `k`, every count has used up two steps. -/
structure Paced (m : ν → Nat) (k n : Nat) (c : Cell ι ν) : Prop where
  value : 2 * m c.value ≤ 2 * k + n
  seen : ∀ i v, c.seen i = some v → 2 * m v + 1 ≤ 2 * k + n

include hcounts

theorem paced_step {n : Nat} (h : Paced m k n c) (i : ι) : Paced m k (n + 1) (c.step f i) := by
  have hvalue := h.value
  cases hseen : c.seen i with
  | none =>
    rw [step_of_unread hseen]
    refine ⟨Nat.le_succ_of_le hvalue, fun j v hv => ?_⟩
    simp only [update_apply] at hv
    split at hv
    · obtain rfl := Option.some.inj hv
      exact Nat.succ_le_succ hvalue
    · exact Nat.le_succ_of_le (h.seen j v hv)
  | some w =>
    have hw := h.seen i w hseen
    rw [step_of_read hseen]
    refine ⟨?_, fun j v hv => ?_⟩
    · rw [hcounts]
      omega
    · simp only [update_apply] at hv
      split at hv
      · cases hv
      · exact Nat.le_succ_of_le (h.seen j v hv)

theorem paced_foldl {n : Nat} (h : Paced m k n c) (order : List ι) :
    Paced m k (n + order.length) (order.foldl (step f) c) := by
  induction order generalizing c n with
  | nil => exact h
  | cons i order ih =>
    have hrest := ih (paced_step hcounts h i)
    rw [length_cons, Nat.add_comm order.length, ← Nat.add_assoc]
    exact hrest

theorem count_foldl_le (v : ν) (order : List ι) :
    2 * m (order.foldl (step f) (fresh v)).value ≤ 2 * m v + order.length := by
  have hstart : Paced m (m v) 0 (fresh v : Cell ι ν) :=
    ⟨Nat.le_refl _, fun _ _ h => absurd h (Option.some_ne_none _).symm⟩
  have hpaced := (paced_foldl hcounts hstart order).value
  rwa [Nat.zero_add] at hpaced

end Counts

theorem exists_eq_append_of_count (h : (order ++ [i]).count i = 2) :
    ∃ before between, order = before ++ i :: between ∧ i ∉ before ∧ i ∉ between := by
  rw [count_append, count_singleton_self] at h
  have hmem : i ∈ order := List.count_pos_iff.mp (by omega)
  obtain ⟨before, between, rfl, hbefore⟩ := eq_append_cons_of_mem hmem
  rw [count_append, count_cons_self, List.count_eq_zero.mpr hbefore] at h
  exact ⟨before, between, rfl, hbefore, List.count_eq_zero.mp (by omega)⟩

theorem value_foldl_last {before between : List ι} {v : ν} (hbefore : i ∉ before)
    (hbetween : i ∉ between) :
    ((before ++ i :: between ++ [i]).foldl (step f) (fresh v)).value
      = f i (before.foldl (step f) (fresh v)).value := by
  have hunread : (before.foldl (step f) (fresh v)).seen i = none := seen_foldl_of_notMem hbefore
  have hread : ((before ++ i :: between).foldl (step f) (fresh v)).seen i
      = some (before.foldl (step f) (fresh v)).value := by
    rw [foldl_append, foldl_cons, seen_foldl_of_notMem hbetween, seen_step_of_unread hunread]
  rw [foldl_append, foldl_cons, foldl_nil, value_step_of_read hread]

theorem exists_serial (hcounts : ∀ i v, m (f i v) = m v + 1) {v : ν}
    (htwice : ∀ i ∈ order, order.count i = 2)
    (hfull : 2 * m (order.foldl (step f) (fresh v)).value = 2 * m v + order.length) :
    ∃ calls, order = serial calls := by
  -- on the length: the last call is taken off with both of its steps
  induction hlen : order.length using Nat.strong_induction_on generalizing order with
  | h n ih =>
    rcases eq_nil_or_concat order with rfl | ⟨init, i, rfl⟩
    · exact ⟨[], rfl⟩
    · rw [concat_eq_append] at *
      obtain ⟨before, between, rfl, hbefore, hbetween⟩ :=
        exists_eq_append_of_count (htwice i (mem_append_right _ (mem_singleton_self i)))
      rw [value_foldl_last hbefore hbetween, hcounts] at hfull
      have hle := count_foldl_le hcounts v before
      simp only [length_append, length_cons, length_nil] at hfull hlen
      have hnil : between = [] := List.length_eq_zero_iff.mp (by omega)
      subst hnil
      have htwice' : ∀ j ∈ before, before.count j = 2 := by
        intro j hj
        have hne : i ≠ j := fun h => hbefore (h ▸ hj)
        have hcount := htwice j (mem_append_left _ (mem_append_left _ hj))
        rw [append_assoc, count_append, singleton_append,
          count_cons_of_ne hne, count_cons_of_ne hne, count_nil] at hcount
        exact hcount
      obtain ⟨calls, hcalls⟩ := ih before.length (by omega) htwice' (by omega) rfl
      refine ⟨calls ++ [i], ?_⟩
      rw [serial_append, ← hcalls, append_assoc]
      rfl

/-! ## One call after another -/

theorem step_step (h : c.seen i = none) : (c.step f i).step f i = ⟨f i c.value, c.seen⟩ := by
  rw [step_of_read (seen_step_of_unread h), step_of_unread h, update_idem, ← h, update_eq_self]

theorem foldl_serial (v : ν) (calls : List ι) :
    (serial calls).foldl (step f) (fresh v) = fresh (calls.foldl (fun v i => f i v) v) := by
  induction calls generalizing v with
  | nil => rfl
  | cons i calls ih =>
    have hcall : ((fresh v).step f i).step f i = fresh (f i v) := step_step rfl
    rw [serial, flatMap_cons, ← serial, foldl_append, foldl_cons, foldl_cons,
      foldl_nil, hcall, ih, foldl_cons]

theorem everyStep_serial (hrefl : ∀ v, R v v) (v : ν) (calls : List ι) :
    EveryStep (step f) (fun c i => R c.value (c.step f i).value) (fresh v) (serial calls)
      ↔ EveryStep (fun v i => f i v) (fun v i => R v (f i v)) v calls := by
  induction calls generalizing v with
  | nil => exact Iff.rfl
  | cons i calls ih =>
    have hcall : ((fresh v).step f i).step f i = fresh (f i v) := step_step rfl
    have hread : ((fresh v).step f i).value = v := rfl
    rw [serial, flatMap_cons, ← serial]
    simp only [cons_append, nil_append, EveryStep, hcall, hread, ih]
    exact and_iff_right (hrefl v)

theorem length_eq_of_count (htwice : ∀ i ∈ order, order.count i = 2) :
    order.length = 2 * order.toFinset.card := by
  rw [← sum_toFinset_count_eq_length,
    Finset.sum_congr rfl fun i hi => htwice i (List.mem_toFinset.mp hi), Finset.sum_const]
  exact Nat.mul_comm ..

theorem counted_and_everyStep_iff (hcounts : ∀ i v, m (f i v) = m v + 1) (hrefl : ∀ v, R v v)
    (v : ν) (htwice : ∀ i ∈ order, order.count i = 2) :
    m (order.foldl (step f) (fresh v)).value = m v + order.toFinset.card
        ∧ EveryStep (step f) (fun c i => R c.value (c.step f i).value) (fresh v) order
      ↔ ∃ calls, order = serial calls
        ∧ EveryStep (fun v i => f i v) (fun v i => R v (f i v)) v calls := by
  have hlength := length_eq_of_count htwice
  constructor
  · rintro ⟨hcount, hsteps⟩
    have hfull : 2 * m (order.foldl (step f) (fresh v)).value = 2 * m v + order.length := by omega
    obtain ⟨calls, hserial⟩ := exists_serial hcounts htwice hfull
    rw [hserial] at hsteps
    exact ⟨calls, hserial, (everyStep_serial hrefl v calls).mp hsteps⟩
  · rintro ⟨calls, hserial, hsteps⟩
    have hcalls : order.toFinset.card = calls.length := by
      have hdouble := length_serial calls
      rw [← hserial] at hdouble
      omega
    refine ⟨?_, ?_⟩
    · rw [hcalls, hserial, foldl_serial]
      exact count_foldl_serial hcounts v calls
    · rw [hserial]
      exact (everyStep_serial hrefl v calls).mpr hsteps

end Cell

/-! ## Procedures -/

namespace Proc

variable {σ α ν : Type} (view : σ → ν)

def Writes (v : ν) : Proc σ α → Prop
  | .done _ => False
  | .call update _ _ => ∀ s, view (update s) = v

def ReadsWrites (f : ν → ν) : Proc σ α → Prop
  | .done _ => False
  | .call update next _ => ∀ s, update s = s ∧ (next s).Writes view (f (view s))

end Proc

namespace Pool

variable {ι σ α ν : Type} [DecidableEq ι] {view : σ → ν} {f : ι → ν → ν}

def Remains (view : σ → ν) (f : ν → ν) : Nat → Option ν → Proc σ α → Prop
  | 2, seen, p => seen = none ∧ p.ReadsWrites view f
  | 1, seen, p => ∃ v, seen = some v ∧ p.Writes view (f v)
  | _, _, _ => True

structure Tracks (view : σ → ν) (f : ι → ν → ν) (order : List ι) (pool : Pool ι σ α)
    (c : Cell ι ν) : Prop where
  value : view pool.state = c.value
  remains : ∀ i, Remains view (f i) (order.count i) (c.seen i) (pool.threads i).proc

variable {order : List ι}

theorem tracks_start {procs : ι → Proc σ α} (h : ∀ i, (procs i).ReadsWrites view (f i))
    (htwice : ∀ i ∈ order, order.count i = 2) (s : σ) :
    Tracks view f order (Pool.start s procs) (Cell.fresh (view s)) where
  value := rfl
  remains i := by
    by_cases hi : i ∈ order
    · rw [htwice i hi]
      exact ⟨rfl, h i⟩
    · rw [List.count_eq_zero.mpr hi]
      trivial

variable {pool : Pool ι σ α} {c : Cell ι ν}

theorem tracks_step {i : ι} (htwice : (i :: order).count i ≤ 2)
    (h : Tracks view f (i :: order) pool c) :
    Tracks view f order (pool.step (i, none)) (c.step f i) := by
  have hself := h.remains i
  have hothers : ∀ j, j ≠ i →
      Remains view (f j) (order.count j) (c.seen j) (pool.threads j).proc := fun j hj =>
    count_cons_of_ne (Ne.symm hj) ▸ h.remains j
  rw [count_cons_self] at hself htwice
  cases hp : (pool.threads i).proc with
  | done a =>
    obtain hn | hn : order.count i = 0 ∨ order.count i = 1 := by omega
    · rw [hn, hp] at hself
      exact hself.elim fun _ h => h.2.elim
    · rw [hn, hp] at hself
      exact hself.2.elim
  | call update next fail =>
    rw [step, hp]
    obtain hn | hn : order.count i = 0 ∨ order.count i = 1 := by omega
    · -- the call writes
      rw [hn, hp] at hself
      obtain ⟨v, hread, hwrites⟩ := hself
      rw [Cell.step_of_read hread]
      refine ⟨hwrites pool.state, forall_resume (P := fun j t => Remains view (f j)
        (order.count j) (Function.update c.seen i none j) t.proc) ?_ fun j hj => ?_⟩
      · rw [hn]
        trivial
      · rw [Function.update_of_ne hj]
        exact hothers j hj
    · -- the call reads
      rw [hn, hp] at hself
      obtain ⟨hunread, hreads⟩ := hself
      obtain ⟨hupdate, hwrites⟩ := hreads pool.state
      rw [Cell.step_of_unread hunread]
      refine ⟨(congrArg view hupdate).trans h.value, forall_resume
        (P := fun j t => Remains view (f j) (order.count j)
          (Function.update c.seen i (some c.value) j) t.proc) ?_ fun j hj => ?_⟩
      · rw [hn, Function.update_self, ← h.value]
        exact ⟨_, rfl, hwrites⟩
      · rw [Function.update_of_ne hj]
        exact hothers j hj

theorem tracks_run {R : ν → ν → Prop} (htwice : ∀ i, order.count i ≤ 2)
    (h : Tracks view f order pool c) :
    view ((order.map (·, none)).foldl step pool).state = (order.foldl (Cell.step f) c).value
      ∧ (EveryStep step (fun pool e => R (view pool.state) (view (pool.step e).state)) pool
            (order.map (·, none))
          ↔ EveryStep (Cell.step f) (fun c i => R c.value (c.step f i).value) c order) := by
  induction order generalizing pool c with
  | nil => exact ⟨h.value, Iff.rfl⟩
  | cons i order ih =>
    have hnext := tracks_step (htwice i) h
    have hrest : ∀ j, order.count j ≤ 2 := fun j =>
      (count_le_count_cons ..).trans (htwice j)
    obtain ⟨hend, hsteps⟩ := ih hrest hnext
    refine ⟨hend, and_congr ?_ hsteps⟩
    show R (view pool.state) (view (pool.step (i, none)).state) ↔ R c.value (c.step f i).value
    rw [h.value, hnext.value]

theorem counted_and_everyStep_iff {m : ν → Nat} (hcounts : ∀ i v, m (f i v) = m v + 1)
    {R : ν → ν → Prop} (hrefl : ∀ v, R v v) {procs : ι → Proc σ α}
    (hprocs : ∀ i, (procs i).ReadsWrites view (f i)) (s : σ)
    (htwice : ∀ i ∈ order, order.count i = 2) :
    m (view ((order.map (·, none)).foldl step (start s procs)).state)
          = m (view s) + order.toFinset.card
        ∧ EveryStep step (fun pool e => R (view pool.state) (view (pool.step e).state))
            (start s procs) (order.map (·, none))
      ↔ ∃ calls, order = Cell.serial calls
        ∧ EveryStep (fun v i => f i v) (fun v i => R v (f i v)) (view s) calls := by
  have hle : ∀ i, order.count i ≤ 2 := by
    intro i
    by_cases hi : i ∈ order
    · exact (htwice i hi).le
    · rw [List.count_eq_zero.mpr hi]
      omega
  obtain ⟨hend, hsteps⟩ := tracks_run (R := R) hle (tracks_start hprocs htwice s)
  rw [hend, hsteps]
  exact Cell.counted_and_everyStep_iff hcounts hrefl (view s) htwice

end Pool

end Go
