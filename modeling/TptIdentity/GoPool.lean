import Mathlib.Data.Fintype.Basic
import Mathlib.Logic.Function.Basic
import TptIdentity.GoProc

/-!
# Pools of procedures

Requests that are served at the same time, as procedures under a schedule (`Pool.step`). A key
is redeemed at most once if no request reads it while another one for it is under way
(`atMostOnce_of_exclusive`). `Pool.everyState_marked` needs no assumption on the schedule.
-/

namespace Go

structure Thread (σ α : Type) where
  proc : Proc σ α
  calls : Nat

namespace Thread

variable {σ α : Type}

def result (t : Thread σ α) : Option α :=
  match t.proc with
  | .done a => some a
  | .call _ _ _ => none

def InFlight (t : Thread σ α) : Prop := 0 < t.calls ∧ t.result.isNone = true
deriving Decidable

end Thread

structure Pool (ι σ α : Type) where
  state : σ
  threads : ι → Thread σ α

namespace Pool

variable {ι σ α κ : Type}

def start (s : σ) (procs : ι → Proc σ α) : Pool ι σ α := ⟨s, fun i => ⟨procs i, 0⟩⟩

variable [DecidableEq ι]

def resume (pool : Pool ι σ α) (i : ι) (p : Proc σ α) (s : σ) : Pool ι σ α :=
  ⟨s, Function.update pool.threads i ⟨p, (pool.threads i).calls + 1⟩⟩

def step (pool : Pool ι σ α) (e : ι × Option Err) : Pool ι σ α :=
  match (pool.threads e.1).proc, e.2 with
  | .done _, _ => pool
  | .call update next _, none => pool.resume e.1 (next pool.state) (update pool.state)
  | .call _ _ fail, some err => pool.resume e.1 (fail err) pool.state

variable {i : ι} (pool : Pool ι σ α)

@[simp] theorem resume_self (i : ι) (p : Proc σ α) (s : σ) :
    (pool.resume i p s).threads i = ⟨p, (pool.threads i).calls + 1⟩ := Function.update_self ..

@[simp] theorem resume_of_ne {j : ι} (h : j ≠ i) (p : Proc σ α) (s : σ) :
    (pool.resume i p s).threads j = pool.threads j := Function.update_of_ne h ..

theorem forall_resume {pool : Pool ι σ α} {p : Proc σ α} {s : σ} {P : ι → Thread σ α → Prop}
    (hself : P i ⟨p, (pool.threads i).calls + 1⟩) (hothers : ∀ j, j ≠ i → P j (pool.threads j))
    (j : ι) : P j ((pool.resume i p s).threads j) := by
  by_cases hj : j = i
  · subst hj
    rw [resume_self]
    exact hself
  · rw [resume_of_ne _ hj]
    exact hothers j hj

theorem alone_resume {pool : Pool ι σ α} {p : Proc σ α} {s : σ} {key : ι → κ}
    {A : Thread σ α → Prop}
    (h : ∀ j k, j ≠ k → key j = key k → A (pool.threads j) → ¬A (pool.threads k))
    (hself : ∀ j, j ≠ i → key j = key i → A (pool.threads j) → ¬A ⟨p, (pool.threads i).calls + 1⟩) :
    ∀ j k, j ≠ k → key j = key k → A ((pool.resume i p s).threads j) →
      ¬A ((pool.resume i p s).threads k) := by
  intro j k hjk hkey hj hk
  by_cases hji : j = i
  · subst hji
    rw [resume_self] at hj
    rw [resume_of_ne _ (Ne.symm hjk)] at hk
    exact hself k (Ne.symm hjk) hkey.symm hk hj
  · rw [resume_of_ne _ hji] at hj
    by_cases hki : k = i
    · subst hki
      rw [resume_self] at hk
      exact hself j hji hkey hj hk
    · rw [resume_of_ne _ hki] at hk
      exact h j k hjk hkey hj hk

/-! ## Single use -/

def AtMostOnce (key : ι → κ) (success : α → Bool) (pool : Pool ι σ α) : Prop :=
  ∀ i j, key i = key j → (pool.threads i).result.any success = true →
    (pool.threads j).result.any success = true → i = j

/-- No request makes its first call while another one with the same key is
under way, and the call with the number `critical` does not fail. -/
@[mk_iff]
structure Exclusive (key : ι → κ) (critical : Nat) (pool : Pool ι σ α) (e : ι × Option Err) :
    Prop where
  alone : (pool.threads e.1).calls = 0 →
    ∀ j, j ≠ e.1 → key j = key e.1 → ¬(pool.threads j).InFlight
  served : e.2.isSome = true → (pool.threads e.1).calls ≠ critical

/-- The same for requests whose critical calls have different numbers. A
request without a key is free. -/
@[mk_iff]
structure ExclusiveAt (key : ι → Option κ) (critical : ι → Nat) (pool : Pool ι σ α)
    (e : ι × Option Err) : Prop where
  alone : (pool.threads e.1).calls = 0 →
    ∀ j, j ≠ e.1 → ∀ k ∈ key e.1, key j = some k → ¬(pool.threads j).InFlight
  served : e.2.isSome = true → (key e.1).isSome = true → (pool.threads e.1).calls ≠ critical e.1

section Decidable

variable [Fintype ι] [DecidableEq κ]

instance (key : ι → κ) (success : α → Bool) :
    DecidablePred (AtMostOnce key success : Pool ι σ α → Prop) := fun _ =>
  inferInstanceAs (Decidable (∀ _ _, _ → _ → _ → _ = _))

instance (key : ι → κ) (critical : Nat) (pool : Pool ι σ α) (e : ι × Option Err) :
    Decidable (Exclusive key critical pool e) := decidable_of_iff' _ (exclusive_iff ..)

instance (key : ι → Option κ) (critical : ι → Nat) (pool : Pool ι σ α) (e : ι × Option Err) :
    Decidable (ExclusiveAt key critical pool e) := decidable_of_iff' _ (exclusiveAt_iff ..)

end Decidable

end Pool

section Redeems

variable {ι σ α : Type}

abbrev Fails (success : α → Bool) (p : Proc σ α) : Prop := p.Returns fun a => success a = false

/-- After `n` calls: on every way to a success, the critical call leads from `J` to `Spent`. -/
inductive Spends (success : α → Bool) (Spent J : σ → Prop) (critical : Nat) :
    Nat → Proc σ α → Prop where
  | failed {n : Nat} {a : α} (h : success a = false) :
      Spends success Spent J critical n (.done a)
  | keep {n : Nat} {update : σ → σ} {next : σ → Proc σ α} {fail : Err → Proc σ α}
      (hnext : ∀ s, Spends success Spent J critical (n + 1) (next s))
      (hfail : ∀ e, Spends success Spent J critical (n + 1) (fail e)) :
      Spends success Spent J critical n (.call update next fail)
  | spend {update : σ → σ} {next : σ → Proc σ α} {fail : Err → Proc σ α}
      (h : ∀ s, J s → Spent (update s)) :
      Spends success Spent J critical critical (.call update next fail)

/-- A request that is refused at once, or whose first call only reads, fails when the key is spent,
and spends the key before it succeeds. `J` is what it remembers of its read. -/
inductive Redeems (success : α → Bool) (I Spent : σ → Prop) (R : ι → σ → σ → Prop)
    (critical : Nat) : Proc σ α → Prop where
  | refused {a : α} (h : success a = false) : Redeems success I Spent R critical (.done a)
  | read {next : σ → Proc σ α} {fail : Err → Proc σ α}
      (hread : ∀ s, I s → ∃ J : σ → Prop, (∀ i s s', R i s s' → J s → J s') ∧ J s
        ∧ Spends success Spent J critical 1 (next s))
      (hspent : ∀ s, Spent s → Fails success (next s))
      (hfail : ∀ e, Fails success (fail e)) :
      Redeems success I Spent R critical (.call (fun s => s) next fail)

variable {β : Type} {success : α → Bool} {Spent J : σ → Prop} {critical : Nat}

variable {R : ι → σ → σ → Prop}

theorem Redeems.lookup {γ : Type} {I : σ → Prop} {op : σ → Res β} {f : Res β → γ} {k : γ → Proc σ α}
    (hread : ∀ s, I s → ∃ J : σ → Prop, (∀ i s s', R i s s' → J s → J s') ∧ J s
      ∧ Spends success Spent J critical 1 (k (f (op s))))
    (hspent : ∀ s, Spent s → Fails success (k (f (op s))))
    (hfail : ∀ e, Fails success (k (f (.err e)))) :
    Redeems success I Spent R critical ((do let r ← Proc.select op; return f r) >>= k) :=
  .read hread hspent hfail

theorem Redeems.run_of_spent {I : σ → Prop} {p : Proc σ α} {s : σ}
    (h : Redeems success I Spent R critical p) (hs : Spent s) (faults : Faults) :
    success (p.run faults s).1 = false := by
  cases h with
  | refused h => exact h
  | read hread hspent hfail =>
    unfold Proc.run
    split
    · exact (hspent s hs).run _ _
    · exact (hfail _).run _ _

theorem Fails.spends : ∀ {p : Proc σ α} {n : Nat}, Fails success p →
    Spends success Spent J critical n p
  | .done _, _, h => .failed h
  | .call _ _ _, _, h => .keep (fun s => spends (h.1 s)) fun e => spends (h.2 e)

section AndThen

variable {success' : β → Bool} {k : β → Proc σ α}

theorem Spends.andThen (hk : ∀ b, success' b = false → Fails success (k b)) {p : Proc σ β} {n : Nat}
    (h : Spends success' Spent J critical n p) : Spends success Spent J critical n (p >>= k) := by
  induction h with
  | failed h => exact (hk _ h).spends
  | keep _ _ ihnext ihfail => exact .keep ihnext ihfail
  | spend h => exact .spend h

theorem Redeems.andThen {I : σ → Prop} {p : Proc σ β} (h : Redeems success' I Spent R critical p)
    (hk : ∀ b, success' b = false → ∃ a, k b = .done a ∧ success a = false) :
    Redeems success I Spent R critical (p >>= k) := by
  have hfails : ∀ b, success' b = false → Fails success (k b) := by
    intro b hb
    obtain ⟨a, ha, hno⟩ := hk b hb
    exact ha ▸ hno
  cases h with
  | @refused b h =>
    obtain ⟨a, ha, hno⟩ := hk b h
    change Redeems success I Spent R critical (k b)
    exact ha ▸ .refused hno
  | read hread hspent hfail =>
    refine .read (fun s hs => ?_) (fun s hs => (hspent s hs).bind hfails) fun e =>
      (hfail e).bind hfails
    obtain ⟨J, hJ, hJs, hspends⟩ := hread s hs
    exact ⟨J, hJ, hJs, hspends.andThen hfails⟩

end AndThen

theorem Spends.bind {k : β → Proc σ α} : ∀ {p : Proc σ β} {m n : Nat}, p.Takes m →
    (∀ b, Spends success Spent J critical (n + m) (k b)) →
    Spends success Spent J critical n (p >>= k)
  | .done b, m, n, hp, hk => by
    obtain rfl : m = 0 := hp
    exact hk b
  | .call _ _ _, 0, _, hp, _ => hp.elim
  | .call _ next fail, m + 1, n, hp, hk => by
    have hk' : ∀ b, Spends success Spent J critical (n + 1 + m) (k b) := fun b => by
      rw [Nat.add_assoc, Nat.add_comm 1 m]
      exact hk b
    exact .keep (fun s => Spends.bind (hp.1 s) hk') fun e => Spends.bind (hp.2 e) hk'

end Redeems

namespace Pool

variable {ι σ α κ : Type} {key : ι → Option κ} {success : α → Bool} {procs : ι → Proc σ α}
  {I : σ → Prop} {Spent : κ → σ → Prop} {R : ι → σ → σ → Prop}

def Active (success : α → Bool) (t : Thread σ α) : Prop := 0 < t.calls ∧ ¬Fails success t.proc

def Stage (success : α → Bool) (Spent : σ → Prop) (R : ι → σ → σ → Prop) (critical : Nat)
    (p : Proc σ α) (s : σ) (t : Thread σ α) : Prop :=
  (t.calls = 0 ∧ t.proc = p) ∨
    (0 < t.calls ∧ ((∃ J : σ → Prop, (∀ i s s', R i s s' → J s → J s') ∧ J s
      ∧ Spends success Spent J critical t.calls t.proc) ∨ Spent s))

structure Presents (success : α → Bool) (I : σ → Prop) (Spent : κ → σ → Prop)
    (R : ι → σ → σ → Prop) (critical : Nat) (key : Option κ) (p : Proc σ α) : Prop where
  redeems : ∀ k ∈ key, Redeems success I (Spent k) R critical p
  fails : key = none → Fails success p

variable {p : Proc σ α}

theorem presents_some {critical : Nat} {k : κ} (h : Redeems success I (Spent k) R critical p) :
    Presents success I Spent R critical (some k) p where
  redeems k' hk' := by
    obtain rfl := Option.mem_some.mp hk'
    exact h
  fails hnone := by cases hnone

theorem presents_none {critical : Nat} (h : Fails success p) :
    Presents success I Spent R critical none p where
  redeems k hk := by cases hk
  fails _ := h

structure Orderly (key : ι → Option κ) (success : α → Bool) (procs : ι → Proc σ α) (I : σ → Prop)
    (Spent : κ → σ → Prop) (R : ι → σ → σ → Prop) (critical : ι → Nat) (pool : Pool ι σ α) :
    Prop where
  state : I pool.state
  within : ∀ i, (pool.threads i).proc.Within (R i)
  stage : ∀ i, ∀ k ∈ key i,
    Stage success (Spent k) R (critical i) (procs i) pool.state (pool.threads i)
  fails : ∀ i, key i = none → Fails success (pool.threads i).proc
  alone : ∀ i j, i ≠ j → key i = key j → Active success (pool.threads i) →
    ¬Active success (pool.threads j)

variable {s : σ}

variable {update : σ → σ} {next : σ → Proc σ α} {fail : Err → Proc σ α}
  {schedule : List (ι × Option Err)} {P : Pool ι σ α → ι × Option Err → Prop}

section Stage

variable {critical : Nat}

variable {t : Thread σ α}

theorem Stage.spent {Spent : σ → Prop} {a : α} (h : Stage success Spent R critical p s t)
    (hcalls : 0 < t.calls) (hdone : t.proc = .done a) (ha : success a) : Spent s := by
  rcases h with ⟨h0, -⟩ | ⟨-, ⟨J, -, -, hspends⟩ | hspent⟩
  · omega
  · rw [hdone] at hspends
    cases hspends with
    | failed h => rw [h] at ha; cases ha
  · exact hspent

theorem Active.done_of_not_inFlight (h : Active success t) (hflight : ¬t.InFlight) :
    ∃ a, t.proc = .done a ∧ success a := by
  cases hproc : t.proc with
  | done a =>
    refine ⟨a, rfl, eq_true_of_ne_false fun ha => h.2 ?_⟩
    rw [hproc]
    exact ha
  | call update next fail =>
    refine absurd ⟨h.1, ?_⟩ hflight
    rw [Thread.result, hproc]
    rfl

theorem Stage.of_call {Spent : σ → Prop} {i : ι} {s' : σ} (h : Stage success Spent R critical p s t)
    (hR : R i s s') (hspent : 0 < t.calls → Spent s → Spent s') :
    Stage success Spent R critical p s' t := by
  rcases h with hidle | ⟨hcalls, ⟨J, hJ, hs, hspends⟩ | hs⟩
  · exact .inl hidle
  · exact .inr ⟨hcalls, .inl ⟨J, hJ, hJ i s s' hR hs, hspends⟩⟩
  · exact .inr ⟨hcalls, .inr (hspent hcalls hs)⟩

theorem Stage.served {Spent : σ → Prop} {i : ι} (h : Stage success Spent R critical p s t)
    (hp : Redeems success I Spent R critical p) (hproc : t.proc = .call update next fail) (hI : I s)
    (hR : R i s (update s)) (hspent : 0 < t.calls → Spent s → Spent (update s)) :
    Stage success Spent R critical p (update s) ⟨next s, t.calls + 1⟩ := by
  refine .inr ⟨Nat.succ_pos _, ?_⟩
  rcases h with ⟨hcalls, rfl⟩ | ⟨hcalls, ⟨J, hJ, hs, hspends⟩ | hs⟩
  · rw [hproc] at hp
    rw [hcalls]
    cases hp with
    | read hread _ _ => exact .inl (hread s hI)
  · rw [hproc] at hspends
    cases hspends with
    | keep hnext _ => exact .inl ⟨J, hJ, hJ i s _ hR hs, hnext s⟩
    | spend hspend => exact .inr (hspend s hs)
  · exact .inr (hspent hcalls hs)

theorem Stage.unserved {Spent : σ → Prop} (h : Stage success Spent R critical p s t)
    (hp : Redeems success I Spent R critical p) (hproc : t.proc = .call update next fail)
    (hcritical : t.calls ≠ critical) (err : Err) :
    Stage success Spent R critical p s ⟨fail err, t.calls + 1⟩ := by
  refine .inr ⟨Nat.succ_pos _, ?_⟩
  rcases h with ⟨-, rfl⟩ | ⟨hcalls, ⟨J, hJ, hs, hspends⟩ | hs⟩
  · rw [hproc] at hp
    cases hp with
    | read _ _ hfail =>
      exact .inl ⟨fun _ => True, fun _ _ _ _ _ => trivial, trivial, (hfail err).spends⟩
  · rw [hproc] at hspends
    cases hspends with
    | keep _ hfail => exact .inl ⟨J, hJ, hs, hfail err⟩
    | spend _ => exact absurd rfl hcritical
  · exact .inr hs

end Stage

variable {critical : ι → Nat} {pool : Pool ι σ α} {i j : ι}

section Active

variable (h : Orderly key success procs I Spent R critical pool)
  (hprocs : ∀ i, Presents success I Spent R (critical i) (key i) (procs i))

include h hprocs

theorem Orderly.atMostOnce : AtMostOnce key success pool := by
  have hactive : ∀ i, (pool.threads i).result.any success → Active success (pool.threads i) := by
    intro i hi
    cases hproc : (pool.threads i).proc with
    | call update next fail => simp [Thread.result, hproc] at hi
    | done a =>
      have ha : success a := by simpa [Thread.result, hproc] using hi
      have hno : ¬Fails success (.done a : Proc σ α) := fun hfails =>
        absurd (ha.symm.trans hfails) (by decide)
      refine ⟨?_, hproc ▸ hno⟩
      cases hkey : key i with
      | none => exact absurd (hproc ▸ h.fails i hkey) hno
      | some k =>
        rcases h.stage i k hkey with ⟨-, hp⟩ | ⟨hcalls, -⟩
        · have hredeems := (hprocs i).redeems k hkey
          rw [← hp, hproc] at hredeems
          cases hredeems with
          | refused hno => rw [hno] at ha; cases ha
        · exact hcalls
  intro i j hkey hi hj
  by_contra hij
  exact h.alone i j hij hkey (hactive i hi) (hactive j hj)

/-- While another request for its key is active, a request goes on to fail: if it makes its
first call, the other one is done and the key is spent. -/
theorem Orderly.fails_next {fault : Option Err} (hexcl : ExclusiveAt key critical pool (i, fault))
    (hproc : (pool.threads i).proc = .call update next fail) (hj : j ≠ i) (hkey : key j = key i)
    (hjactive : Active success (pool.threads j)) :
    Fails success (next pool.state) ∧ ∀ e, Fails success (fail e) := by
  rcases Nat.eq_zero_or_pos (pool.threads i).calls with h0 | hpos
  · cases hk : key i with
    | none =>
      have hfails := hproc ▸ h.fails i hk
      exact ⟨hfails.1 _, hfails.2⟩
    | some k =>
      obtain ⟨a, hdone, ha⟩ :=
        hjactive.done_of_not_inFlight (hexcl.alone h0 j hj k hk (hkey.trans hk))
      have hspent := (h.stage j k (hkey.trans hk)).spent hjactive.1 hdone ha
      rcases h.stage i k hk with ⟨-, hp⟩ | ⟨hpos, -⟩
      · have hredeems := (hprocs i).redeems k hk
        rw [← hp, hproc] at hredeems
        cases hredeems with
        | read _ hrefuse hfail => exact ⟨hrefuse _ hspent, hfail⟩
      · omega
  · have hfails : Fails success (pool.threads i).proc := by
      by_contra hno
      exact h.alone j i hj hkey hjactive ⟨hpos, hno⟩
    rw [hproc] at hfails
    exact ⟨hfails.1 _, hfails.2⟩

end Active

variable [DecidableEq ι]

theorem Orderly.resume
    (h : Orderly key success procs I Spent R critical pool) (hI : I s) (hp : p.Within (R i))
    (hmoved : s = pool.state ∨ R i pool.state s)
    (hspent : ∀ j, ∀ k ∈ key j, 0 < (pool.threads j).calls → Spent k pool.state → Spent k s)
    (hstage : ∀ k ∈ key i, Stage success (Spent k) R (critical i) (procs i) s
      ⟨p, (pool.threads i).calls + 1⟩) (hfails : key i = none → Fails success p)
    (halone : ∀ j, j ≠ i → key j = key i → Active success (pool.threads j) →
      ¬Active success ⟨p, (pool.threads i).calls + 1⟩) :
    Orderly key success procs I Spent R critical (pool.resume i p s) where
  state := hI
  within := forall_resume (P := fun j t => t.proc.Within (R j)) hp fun j _ => h.within j
  stage := by
    refine forall_resume (P := fun j t => ∀ k ∈ key j, Stage success (Spent k) R (critical j)
      (procs j) s t) hstage fun j _ k hk => ?_
    rcases hmoved with rfl | hR
    · exact h.stage j k hk
    · exact (h.stage j k hk).of_call hR (hspent j k hk)
  fails := forall_resume (P := fun j t => key j = none → Fails success t.proc) hfails
    fun j _ => h.fails j
  alone := alone_resume h.alone halone

theorem Orderly.step {e : ι × Option Err} (h : Orderly key success procs I Spent R critical pool)
    (hprocs : ∀ i, Presents success I Spent R (critical i) (key i) (procs i))
    (hI : ∀ i s s', R i s s' → I s → I s') (hexcl : ExclusiveAt key critical pool e)
    (hspent : ∀ j, ∀ k ∈ key j, 0 < (pool.threads j).calls → Spent k pool.state →
      Spent k (pool.step e).state) :
    Orderly key success procs I Spent R critical (pool.step e) := by
  obtain ⟨i, fault⟩ := e
  cases hproc : (pool.threads i).proc with
  | done a =>
    rw [Pool.step, hproc]
    exact h
  | call update next fail =>
    obtain ⟨hR, hnext, hfail⟩ := hproc ▸ h.within i
    have hhopeless : key i = none → Fails success (.call update next fail) := fun hkey =>
      hproc ▸ h.fails i hkey
    have hfails := fun j => h.fails_next hprocs (j := j) hexcl hproc
    cases fault with
    | none =>
      have hstep : pool.step (i, none)
          = pool.resume i (next pool.state) (update pool.state) := by
        rw [Pool.step, hproc]
      rw [hstep] at hspent ⊢
      exact h.resume (hI i _ _ (hR _) h.state) (hnext _) (.inr (hR _)) hspent
        (fun k hk => (h.stage i k hk).served ((hprocs i).redeems k hk) hproc h.state (hR _)
          (hspent i k hk)) (fun hkey => (hhopeless hkey).1 _)
        fun j hj hkey hjactive hactive => hactive.2 (hfails j hj hkey hjactive).1
    | some err =>
      have hstep : pool.step (i, some err) = pool.resume i (fail err) pool.state := by
        rw [Pool.step, hproc]
      rw [hstep]
      exact h.resume h.state (hfail err) (.inl rfl) (fun _ _ _ _ hs => hs)
        (fun k hk => (h.stage i k hk).unserved ((hprocs i).redeems k hk) hproc
          (hexcl.served rfl (Option.isSome_of_mem hk)) err)
        (fun hkey => (hhopeless hkey).2 err)
        fun j hj hkey hjactive hactive => hactive.2 ((hfails j hj hkey hjactive).2 err)

theorem atMostOnce_of_exclusiveAt (Spent : κ → σ → Prop)
    (hprocs : ∀ i, Presents success I Spent R (critical i) (key i) (procs i))
    (hwithin : ∀ i, (procs i).Within (R i)) (hI : ∀ i s s', R i s s' → I s → I s') (hs : I s)
    (hexcl : ∀ pool e, P pool e → ExclusiveAt key critical pool e)
    (hspent : ∀ pool e, P pool e → (pool.threads e.1).proc.Within (R e.1) →
      ∀ j, ∀ k ∈ key j, 0 < (pool.threads j).calls → Spent k pool.state →
        Spent k (pool.step e).state) (hschedule : EveryStep Pool.step P (start s procs) schedule) :
    EveryState Pool.step (AtMostOnce key success) (start s procs) schedule := by
  refine everyState_of_everyStep (I := Orderly key success procs I Spent R critical)
    (fun pool h => h.atMostOnce hprocs)
    (fun pool e h hP => h.step hprocs hI (hexcl pool e hP) (hspent pool e hP (h.within e.1))) ?_
    hschedule
  exact ⟨hs, hwithin, fun i k _ => .inl ⟨rfl, rfl⟩, fun i hi => (hprocs i).fails hi,
    fun i j _ _ hi => absurd hi.1 (Nat.lt_irrefl 0)⟩

theorem state_step {pool : Pool ι σ α} {e : ι × Option Err} {R : σ → σ → Prop}
    (h : (pool.threads e.1).proc.Within R) :
    (pool.step e).state = pool.state
      ∨ (pool.threads e.1).result.isNone ∧ R pool.state (pool.step e).state := by
  obtain ⟨i, fault⟩ := e
  cases hproc : (pool.threads i).proc with
  | done a =>
    rw [Pool.step, hproc]
    exact .inl rfl
  | call update next fail =>
    rw [Pool.step, hproc]
    cases fault with
    | none =>
      refine .inr ⟨?_, (hproc ▸ h).1 pool.state⟩
      rw [Thread.result, hproc]
      rfl
    | some err => exact .inl rfl

theorem atMostOnce_of_exclusive {key : ι → κ} {critical : Nat} (Spent : κ → σ → Prop)
    (hprocs : ∀ i, Redeems success I (Spent (key i)) R critical (procs i))
    (hwithin : ∀ i, (procs i).Within (R i)) (hI : ∀ i s s', R i s s' → I s → I s') (hs : I s)
    (hexcl : ∀ pool e, P pool e → Exclusive key critical pool e)
    (hspent : ∀ pool e, P pool e → (pool.threads e.1).result.isNone →
      ∀ j, 0 < (pool.threads j).calls → ∀ s s', R e.1 s s' → Spent (key j) s → Spent (key j) s')
    (hschedule : EveryStep Pool.step P (start s procs) schedule) :
    EveryState Pool.step (AtMostOnce key success) (start s procs) schedule := by
  refine everyState_mono (fun pool h i j hkey => h i j (congrArg some hkey))
    (atMostOnce_of_exclusiveAt Spent (fun i => presents_some (hprocs i)) hwithin hI hs
      (fun pool e hP => ?_) (fun pool e hP hwithin j k hk hcalls hold => ?_) hschedule)
  · have hold := hexcl pool e hP
    exact ⟨fun h0 j hj k hk hkey =>
      hold.alone h0 j hj (Option.some.inj (hkey.trans hk.symm)), fun hfault _ => hold.served hfault⟩
  · obtain rfl := Option.mem_some.mp hk
    rcases state_step hwithin with hsame | ⟨hrunning, hR⟩
    · exact hsame ▸ hold
    · exact hspent pool e hP hrunning j hcalls _ _ hR hold

end Pool

/-! ## Marks -/

section Marks

variable {ι σ α τ : Type} {success : α → Bool} {Mark : τ → σ → Prop}

def Settled (success : α → Bool) (Mark : τ → σ → Prop) (p : Proc σ α) : Prop :=
  p.Returns (fun a => success a = true) ∧ p.Within fun s s' => ∀ t, Mark t s' ↔ Mark t s

/-- The request sets the mark `t` on its way to a success, or it does not succeed and sets none. -/
def Marks (success : α → Bool) (Mark : τ → σ → Prop) (t : τ) : Proc σ α → Prop
  | .done a => success a = false
  | .call update next fail =>
    ((∀ s t', Mark t' (update s) ↔ Mark t' s) ∧ (∀ s, Marks success Mark t (next s))
      ∨ (∀ s t', Mark t' (update s) ↔ Mark t' s ∨ t' = t)
        ∧ ∀ s, Settled success Mark (next s))
    ∧ ∀ e, Marks success Mark t (fail e)

theorem Marks.not_settled {t : τ} : ∀ {p : Proc σ α}, Marks success Mark t p →
    ¬Settled success Mark p
  | .done a, h, hset => by
    have hyes : success a := hset.1
    rw [show success a = false from h] at hyes
    cases hyes
  | .call _ _ fail, h, hset =>
    (h.2 (.new "" [])).not_settled ⟨hset.1.2 _, hset.2.2.2 _⟩

variable {p : Proc σ α} {s s' : σ}

namespace Pool

variable {mark : ι → τ} {procs : ι → Proc σ α}

/-- The marks are those of the start and of the requests that are settled. -/
structure Marked (success : α → Bool) (Mark : τ → σ → Prop) (mark : ι → τ) (s : σ)
    (pool : Pool ι σ α) : Prop where
  pending : ∀ i, Marks success Mark (mark i) (pool.threads i).proc
    ∨ Settled success Mark (pool.threads i).proc
  marked : ∀ t, Mark t pool.state
    ↔ Mark t s ∨ ∃ i, mark i = t ∧ Settled success Mark (pool.threads i).proc

theorem settled_iff_of_done {t : Thread σ α} (h : t.result.isSome) :
    Settled success Mark t.proc ↔ t.result.any success := by
  cases hproc : t.proc with
  | call update next fail => simp [Thread.result, hproc] at h
  | done a =>
    have hresult : t.result = some a := by rw [Thread.result, hproc]
    rw [hresult]
    constructor
    · intro hset
      exact hset.1
    · intro ha
      exact ⟨ha, trivial⟩

variable {pool : Pool ι σ α}

theorem Marked.mark_iff (h : Marked success Mark mark s pool)
    (hdone : ∀ i, (pool.threads i).result.isSome) (t : τ) :
    Mark t pool.state
      ↔ Mark t s ∨ ∃ i, mark i = t ∧ (pool.threads i).result.any success := by
  rw [h.marked t]
  simp only [settled_iff_of_done (hdone _)]

variable [DecidableEq ι]

theorem Marked.keep {i : ι} (h : Marked success Mark mark s pool)
    (hsame : ∀ t, Mark t s' ↔ Mark t pool.state)
    (hp : Marks success Mark (mark i) p ∧ Marks success Mark (mark i) (pool.threads i).proc
      ∨ Settled success Mark p ∧ Settled success Mark (pool.threads i).proc) :
    Marked success Mark mark s (pool.resume i p s') := by
  have hsettled : ∀ j, Settled success Mark ((pool.resume i p s').threads j).proc
      ↔ Settled success Mark (pool.threads j).proc := by
    refine forall_resume (P := fun j t => Settled success Mark t.proc
      ↔ Settled success Mark (pool.threads j).proc) ?_ fun _ _ => Iff.rfl
    rcases hp with ⟨hnew, hold⟩ | ⟨hnew, hold⟩
    · exact iff_of_false hnew.not_settled hold.not_settled
    · exact iff_of_true hnew hold
  constructor
  · exact forall_resume (P := fun j t => Marks success Mark (mark j) t.proc
      ∨ Settled success Mark t.proc) (hp.imp And.left And.left) fun j _ => h.pending j
  · intro t
    simp only [hsettled]
    exact (hsame t).trans (h.marked t)

theorem Marked.set {i : ι} (h : Marked success Mark mark s pool)
    (hset : ∀ t, Mark t s' ↔ Mark t pool.state ∨ t = mark i)
    (hold : Marks success Mark (mark i) (pool.threads i).proc) (hp : Settled success Mark p) :
    Marked success Mark mark s (pool.resume i p s') := by
  constructor
  · exact forall_resume (P := fun j t => Marks success Mark (mark j) t.proc
      ∨ Settled success Mark t.proc) (Or.inr hp) fun j _ => h.pending j
  · intro t
    show Mark t s' ↔ _
    rw [hset t, h.marked t]
    constructor
    · rintro ((hs | ⟨j, hj, hsettled⟩) | rfl)
      · exact Or.inl hs
      · refine Or.inr ⟨j, hj, ?_⟩
        have hne : j ≠ i := by
          rintro rfl
          exact hold.not_settled hsettled
        rw [resume_of_ne _ hne]
        exact hsettled
      · exact Or.inr ⟨i, rfl, by rw [resume_self]; exact hp⟩
    · rintro (hs | ⟨j, hj, hsettled⟩)
      · exact Or.inl (Or.inl hs)
      · by_cases hji : j = i
        · exact Or.inr (hji ▸ hj.symm)
        · rw [resume_of_ne _ hji] at hsettled
          exact Or.inl (Or.inr ⟨j, hj, hsettled⟩)

theorem Marked.step {s : σ} (h : Marked success Mark mark s pool) (e : ι × Option Err) :
    Marked success Mark mark s (pool.step e) := by
  obtain ⟨i, fault⟩ := e
  cases hproc : (pool.threads i).proc with
  | done a =>
    rw [Pool.step, hproc]
    exact h
  | call update next fail =>
    rcases h.pending i with hmarks | hsettled
    · have hcall := hproc ▸ hmarks
      cases fault with
      | none =>
        rw [Pool.step, hproc]
        rcases hcall.1 with ⟨hsame, hnext⟩ | ⟨hset, hnext⟩
        · exact h.keep (hsame _) (Or.inl ⟨hnext _, hmarks⟩)
        · exact h.set (hset _) hmarks (hnext _)
      | some err =>
        rw [Pool.step, hproc]
        exact h.keep (fun _ => Iff.rfl) (Or.inl ⟨hcall.2 err, hmarks⟩)
    · obtain ⟨⟨hnext, hfail⟩, hsame, hnext', hfail'⟩ := hproc ▸ hsettled
      cases fault with
      | none =>
        rw [Pool.step, hproc]
        exact h.keep (hsame _) (Or.inr ⟨⟨hnext _, hnext' _⟩, hsettled⟩)
      | some err =>
        rw [Pool.step, hproc]
        exact h.keep (fun _ => Iff.rfl) (Or.inr ⟨⟨hfail err, hfail' err⟩, hsettled⟩)

theorem everyState_marked (hprocs : ∀ i, Marks success Mark (mark i) (procs i))
    (schedule : List (ι × Option Err)) :
    EveryState Pool.step (Marked success Mark mark s) (start s procs) schedule := by
  refine everyState_of_everyStep (P := fun _ _ => True) (fun _ h => h)
    (fun _ e h _ => h.step e) ?_ (everyStep_of_forall fun _ _ => trivial)
  refine ⟨fun i => Or.inl (hprocs i), fun t => ⟨Or.inl, ?_⟩⟩
  rintro (hs | ⟨i, -, hsettled⟩)
  · exact hs
  · exact absurd hsettled (hprocs i).not_settled

end Pool

end Marks

end Go
