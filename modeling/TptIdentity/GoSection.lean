import TptIdentity.GoPool

/-!
# Sections that exclude each other

Requests that read something and later write what they computed from it. If no request starts
while another one with its key is in its critical section (`Pool.Alone`), or under way
(`Pool.Excluded`), what a request restores undisturbed holds of every key that no request is
inside for (`Pool.everyState_of_alone`, `Pool.everyState_of_excluded`).
-/

namespace Go

variable {ι σ α κ ν : Type}

def Thread.Inside (m : Nat) (t : Thread σ α) : Prop :=
  0 < t.calls ∧ t.calls < m ∧ t.result.isNone = true
deriving Decidable

def Framed (view : κ → σ → ν) (G : σ → Prop) (k : κ) (s s' : σ) : Prop :=
  G s' ∧ ∀ k', k' ≠ k → view k' s' = view k' s

/-- After `n` calls, with the view `v` of the key `k`: `J` holds until the section ends, and then
`I` does and later calls leave all views alone. -/
def Proc.Restores (view : κ → σ → ν) (k : κ) (I J : ν → Prop)
    (Allowed : Nat → Option Err → σ → Prop) (m : Nat) : Nat → Proc σ α → ν → Prop
  | _, .done _, v => I v
  | n, .call update next fail, v =>
    (n < m → J v ∧ ∀ s, view k s = v →
      (Allowed n none s → Framed view (fun _ => True) k s (update s)
        ∧ Restores view k I J Allowed m (n + 1) (next s) (view k (update s)))
      ∧ ∀ e, Allowed n (some e) s → Restores view k I J Allowed m (n + 1) (fail e) v)
    ∧ (m ≤ n → I v ∧ (Proc.call update next fail).Within fun s s' => ∀ k, view k s' = view k s)

/-- After `n` calls, with the view `v` of the key `k`. -/
def Proc.Serves (view : κ → σ → ν) (k : κ) (G : σ → Prop) (I : ν → Prop) (Step : ν → ν → Prop)
    (Out : ν → α → Prop) (Allowed : Nat → Option Err → Prop) : Nat → Proc σ α → ν → Prop
  | _, .done a, v => I v ∧ Out v a
  | n, .call update next fail, v =>
    ∀ s, G s → view k s = v →
      (Allowed n none → Framed view G k s (update s) ∧ Step v (view k (update s))
        ∧ Serves view k G I Step Out Allowed (n + 1) (next s) (view k (update s)))
      ∧ ∀ e, Allowed n (some e) → Serves view k G I Step Out Allowed (n + 1) (fail e) v

/-- What the two have in common. -/
structure Sections (ι σ α κ ν : Type) where
  key : ι → κ
  view : κ → σ → ν
  G : σ → Prop
  I : κ → ν → Prop
  Step : κ → ν → ν → Prop
  Out : ι → ν → α → Prop
  Allowed : ι → Nat → Option Err → σ → Prop
  inside : Nat → Prop

variable {n : Nat} {p : Proc σ α} {v : ν} {a : α}

namespace Sections

def own (S : Sections ι σ α κ ν) (i : ι) (s : σ) : ν := S.view (S.key i) s

def Busy (S : Sections ι σ α κ ν) (t : Thread σ α) : Prop :=
  0 < t.calls ∧ S.inside t.calls ∧ t.result.isNone = true

def Quiet (S : Sections ι σ α κ ν) (s s' : σ) : Prop :=
  S.G s → S.G s' ∧ ∀ k, S.view k s' = S.view k s

def Follows (S : Sections ι σ α κ ν) (i : ι) : Nat → Proc σ α → ν → Prop
  | _, .done a, v => S.I (S.key i) v ∧ S.Out i v a
  | n, .call update next fail, v =>
    (S.inside n → ∀ s, S.G s → S.own i s = v →
      (S.Allowed i n none s → Framed S.view S.G (S.key i) s (update s)
        ∧ S.Step (S.key i) v (S.own i (update s))
        ∧ Follows S i (n + 1) (next s) (S.own i (update s)))
      ∧ ∀ e, S.Allowed i n (some e) s → Follows S i (n + 1) (fail e) v)
    ∧ (¬S.inside n → S.I (S.key i) v ∧ (Proc.call update next fail).Returns (S.Out i v)
      ∧ (Proc.call update next fail).Within S.Quiet)

theorem Follows.idle {S : Sections ι σ α κ ν} {i : ι} (h : S.Follows i n p v) (hn : 0 < n)
    (hout : ¬S.Busy ⟨p, n⟩) : S.I (S.key i) v := by
  cases p with
  | done a => exact h.1
  | call update next fail => exact (h.2 fun hin => hout ⟨hn, hin, rfl⟩).1

end Sections

namespace Proc

variable {β : Type} {view : κ → σ → ν} {G : σ → Prop} {Allowed : Nat → Option Err → Prop}

section Serves

variable {k : κ} {I : ν → Prop} {Step : ν → ν → Prop} {Out : ν → α → Prop} {n : Nat} {v : ν}

theorem serves_pure (hI : I v) (ha : Out v a) :
    (pure a : Proc σ α).Serves view k G I Step Out Allowed n v := ⟨hI, ha⟩

theorem serves_bind_quiet {f : β → Proc σ α} (hrefl : Step v v) :
    ∀ {p : Proc σ β} {n : Nat}, p.Within (fun s s' => G s → G s' ∧ ∀ k, view k s' = view k s) →
      (∀ b n', n ≤ n' → (f b).Serves view k G I Step Out Allowed n' v) →
      (p >>= f).Serves view k G I Step Out Allowed n v
  | done b, n, _, hf => hf b n le_rfl
  | call update next fail, n, hp, hf => by
    intro s hs hv
    obtain ⟨hgood, hviews⟩ := hp.1 s hs
    have hview : view k (update s) = v := (hviews k).trans hv
    refine ⟨fun _ => ⟨⟨hgood, fun k' _ => hviews k'⟩, ?_⟩, fun e _ => ?_⟩
    · rw [hview]
      exact ⟨hrefl, serves_bind_quiet hrefl (hp.2.1 s)
        fun b n' hn => hf b n' (Nat.le_of_succ_le hn)⟩
    · exact serves_bind_quiet hrefl (hp.2.2 e) fun b n' hn => hf b n' (Nat.le_of_succ_le hn)

end Serves

theorem Serves.follows {key : ι → κ} {I : κ → ν → Prop}
    {Step : κ → ν → ν → Prop} {Out : ι → ν → α → Prop} {i : ι} :
    ∀ {p : Proc σ α} {n : Nat} {v : ν},
      p.Serves view (key i) G (I (key i)) (Step (key i)) (Out i) Allowed n v →
        Sections.Follows ⟨key, view, G, I, Step, Out, fun _ n fault _ => Allowed n fault,
          fun _ => True⟩ i n p v
  | done _, _, _, h => h
  | call _ _ _, _, _, h => by
    refine ⟨fun _ s hs hv => ⟨fun hallowed => ?_, fun e he => ((h s hs hv).2 e he).follows⟩,
      fun hout => absurd trivial hout⟩
    obtain ⟨hframed, hstep, hnext⟩ := (h s hs hv).1 hallowed
    exact ⟨hframed, hstep, hnext.follows⟩

section Restores

variable {Allowed : ι → Nat → Option Err → σ → Prop} {m : Nat} {i : ι}

theorem Restores.always {k : κ} {I J : ν → Prop} (hIJ : ∀ v, I v → J v)
    (h : p.Restores view k I J (Allowed i) m n v) : J v := by
  cases p with
  | done a => exact hIJ v h
  | call update next fail =>
    rcases Nat.lt_or_ge n m with hlt | hge
    · exact (h.1 hlt).1
    · exact hIJ v (h.2 hge).1

theorem Restores.follows {key : ι → κ} {I J : κ → ν → Prop} (hIJ : ∀ k v, I k v → J k v) :
    ∀ {p : Proc σ α} {n : Nat} {v : ν},
      p.Restores view (key i) (I (key i)) (J (key i)) (Allowed i) m n v →
        Sections.Follows ⟨key, view, fun _ => True, I, fun k v v' => J k v → J k v',
          fun _ _ _ => True, Allowed, (· < m)⟩ i n p v
  | done _, _, _, h => ⟨h, trivial⟩
  | call update next fail, n, v, h => by
    refine ⟨fun hlt s _ hv => ?_, fun hge => ?_⟩
    · obtain ⟨hnext, hfail⟩ := (h.1 hlt).2 s hv
      refine ⟨fun ha => ?_, fun e he => (hfail e he).follows hIJ⟩
      obtain ⟨hframed, hrest⟩ := hnext ha
      exact ⟨hframed, fun _ => hrest.always (hIJ _), hrest.follows hIJ⟩
    · obtain ⟨hI, hwithin⟩ := h.2 (Nat.le_of_not_lt hge)
      exact ⟨hI, returns_of_forall (fun _ => trivial) _, hwithin.mono fun _ _ h _ => ⟨trivial, h⟩⟩

end Restores

end Proc

namespace Pool

def Alone (key : ι → κ) (m : Nat) (pool : Pool ι σ α) (e : ι × Option Err) : Prop :=
  (pool.threads e.1).calls = 0 → ∀ j, j ≠ e.1 → key j = key e.1 → ¬(pool.threads j).Inside m

instance decidableAlone [Fintype ι] [DecidableEq ι] [DecidableEq κ] (key : ι → κ) (m : Nat)
    (pool : Pool ι σ α) (e : ι × Option Err) : Decidable (Alone key m pool e) :=
  inferInstanceAs (Decidable (_ → ∀ _, _ → _ → ¬_))

def Idle (key : ι → κ) (m : Nat) (pool : Pool ι σ α) (k : κ) : Prop :=
  ∀ i, key i = k → ¬(pool.threads i).Inside m

def Excluded (key : ι → κ) (pool : Pool ι σ α) (e : ι × Option Err) : Prop :=
  (pool.threads e.1).calls = 0 → ∀ j, j ≠ e.1 → key j = key e.1 → ¬(pool.threads j).InFlight

instance decidableExcluded [Fintype ι] [DecidableEq ι] [DecidableEq κ] (key : ι → κ)
    (pool : Pool ι σ α) (e : ι × Option Err) : Decidable (Excluded key pool e) :=
  inferInstanceAs (Decidable (_ → ∀ _, _ → _ → ¬_))

inductive Position (S : Sections ι σ α κ ν) (i : ι) (p : Proc σ α) (s : σ) (t : Thread σ α) : Prop
  | fresh (calls : t.calls = 0) (proc : t.proc = p) (pending : t.result = none)
  | underWay (busy : S.Busy t) (follows : S.Follows i t.calls t.proc (S.own i s))
  | past (outside : t.result.isNone = true → ¬S.inside t.calls)
      (returns : t.proc.Returns (S.Out i (S.own i s)))
      (within : t.proc.Within S.Quiet)

structure Separate (S : Sections ι σ α κ ν) (procs : ι → Proc σ α) (pool : Pool ι σ α) : Prop where
  good : S.G pool.state
  position : ∀ i, Position S i (procs i) pool.state (pool.threads i)
  alone : ∀ i j, i ≠ j → S.key i = S.key j → S.Busy (pool.threads i) → ¬S.Busy (pool.threads j)
  idle : ∀ k, (∀ i, S.key i = k → ¬S.Busy (pool.threads i)) → S.I k (S.view k pool.state)

section Step

variable {S : Sections ι σ α κ ν} {procs : ι → Proc σ α} {pool : Pool ι σ α} {i : ι}
  {p : Proc σ α} {s s' : σ} {t : Thread σ α}

theorem Position.of_follows {q : Proc σ α} (hn : 0 < n) (h : S.Follows i n q (S.own i s)) :
    Position S i p s ⟨q, n⟩ := by
  cases q with
  | done a => exact .past (fun hnone => by cases hnone) h.2 trivial
  | call update next fail =>
    by_cases hin : S.inside n
    · exact .underWay ⟨hn, hin, rfl⟩ h
    · exact .past (fun _ => hin) (h.2 hin).2.1 (h.2 hin).2.2

theorem Position.of_step (h : Position S i p s t) (hview : S.Busy t → S.own i s' = S.own i s)
    (hstep : ∀ a, S.Out i (S.own i s) a → S.Out i (S.own i s') a) : Position S i p s' t := by
  cases h with
  | fresh hcalls hp hpending => exact .fresh hcalls hp hpending
  | underWay hin hfollows => exact .underWay hin (hview hin ▸ hfollows)
  | past hout hreturns hwithin => exact .past hout (hreturns.mono hstep) hwithin

theorem Separate.follows (h : Separate S procs pool)
    (hprocs : ∀ i v, S.I (S.key i) v → S.Follows i 0 (procs i) v)
    (hexcl : (pool.threads i).calls = 0 → ∀ j, j ≠ i → S.key j = S.key i → ¬S.Busy (pool.threads j))
    (hnone : (pool.threads i).result.isNone) (hin : S.inside (pool.threads i).calls) :
    (∀ j, j ≠ i → S.key j = S.key i → ¬S.Busy (pool.threads j))
      ∧ S.Follows i (pool.threads i).calls (pool.threads i).proc (S.own i pool.state) := by
  cases h.position i with
  | fresh hcalls hp _ =>
    have honly := hexcl hcalls
    refine ⟨honly, ?_⟩
    rw [hcalls, hp]
    refine hprocs i _ (h.idle _ ?_)
    intro j hkey
    by_cases hj : j = i
    · subst hj
      rintro ⟨hpos, -⟩
      exact absurd hcalls (Nat.ne_of_gt hpos)
    · exact honly j hj hkey
  | underWay hbusy hfollows =>
    exact ⟨fun j hj hkey => h.alone i j (Ne.symm hj) hkey.symm hbusy, hfollows⟩
  | past hout _ _ => exact absurd hin (hout hnone)

theorem Separate.past (h : Separate S procs pool) (hfirst : S.inside 0)
    (hin : ¬S.inside (pool.threads i).calls) :
    (pool.threads i).proc.Returns (S.Out i (S.own i pool.state))
      ∧ (pool.threads i).proc.Within S.Quiet := by
  cases h.position i with
  | fresh hcalls _ _ => exact absurd (hcalls ▸ hfirst) hin
  | underWay hbusy _ => exact absurd hbusy.2.1 hin
  | past _ hreturns hwithin => exact ⟨hreturns, hwithin⟩

theorem Separate.start (hprocs : ∀ i v, S.I (S.key i) v → S.Follows i 0 (procs i) v)
    (hgood : S.G s) (hs : ∀ k, S.I k (S.view k s)) : Separate S procs (start s procs) := by
  refine ⟨hgood, ?_, ?_, fun k _ => hs k⟩
  · intro i
    have hfollows := hprocs i _ (hs (S.key i))
    show Position S i (procs i) s ⟨procs i, 0⟩
    cases hproc : procs i with
    | done a =>
      rw [hproc] at hfollows
      exact .past (fun hnone => by cases hnone) hfollows.2 trivial
    | call update next fail => exact .fresh rfl rfl rfl
  · rintro i j - - ⟨hpos, -⟩
    exact absurd hpos (Nat.lt_irrefl 0)

theorem Separate.out (h : Separate S procs pool) (hresult : (pool.threads i).result = some a) :
    S.Out i (S.own i pool.state) a := by
  cases h.position i with
  | fresh _ _ hpending =>
    rw [hpending] at hresult
    cases hresult
  | underWay hbusy _ =>
    have hnone := hbusy.2.2
    rw [hresult] at hnone
    cases hnone
  | past _ hreturns _ =>
    cases hproc : (pool.threads i).proc with
    | done a' =>
      rw [hproc] at hreturns
      rw [Thread.result, hproc] at hresult
      exact Option.some.inj hresult ▸ hreturns
    | call update next fail =>
      rw [Thread.result, hproc] at hresult
      cases hresult

variable [DecidableEq ι]

theorem Separate.resume (h : Separate S procs pool)
    (hframed : Framed S.view S.G (S.key i) pool.state s)
    (honly : ∀ j, j ≠ i → S.key j = S.key i → S.Busy (pool.threads j) →
      S.own i s = S.own i pool.state ∧ ¬S.Busy ⟨p, (pool.threads i).calls + 1⟩)
    (hstable : ∀ j, S.key j = S.key i → ∀ a, S.Out j (S.own j pool.state) a → S.Out j (S.own j s) a)
    (hself : Position S i (procs i) s ⟨p, (pool.threads i).calls + 1⟩)
    (hidle : ¬S.Busy ⟨p, (pool.threads i).calls + 1⟩ →
      (∀ j, j ≠ i → S.key j = S.key i → ¬S.Busy (pool.threads j)) → S.I (S.key i) (S.own i s)) :
    Separate S procs (pool.resume i p s) := by
  obtain ⟨hgood, hothers⟩ := hframed
  refine ⟨hgood, ?_, ?_, ?_⟩
  · refine forall_resume (P := fun j t => Position S j (procs j) s t) hself fun j hj => ?_
    by_cases hkey : S.key j = S.key i
    · refine (h.position j).of_step (fun hbusy => ?_) (hstable j hkey)
      have := (honly j hj hkey hbusy).1
      unfold Sections.own at this ⊢
      rwa [hkey]
    · have hview : S.own j s = S.own j pool.state := hothers _ hkey
      exact (h.position j).of_step (fun _ => hview) fun a ha => hview.symm ▸ ha
  · exact alone_resume h.alone fun j hj hkey hbusy => (honly j hj hkey hbusy).2
  · intro k hout
    -- who is not in the section now was not before, the moving request perhaps excepted
    have hbefore : ∀ j, j ≠ i → S.key j = k → ¬S.Busy (pool.threads j) := by
      intro j hj hkey
      have := hout j hkey
      rwa [resume_of_ne _ hj] at this
    by_cases hk : k = S.key i
    · subst hk
      have := hout i rfl
      rw [resume_self] at this
      exact hidle this hbefore
    · refine hothers k hk ▸ h.idle k ?_
      intro j hkey
      refine hbefore j ?_ hkey
      rintro rfl
      exact hk hkey.symm

theorem Separate.resume_inside (h : Separate S procs pool)
    (hframed : Framed S.view S.G (S.key i) pool.state s)
    (honly : ∀ j, j ≠ i → S.key j = S.key i → ¬S.Busy (pool.threads j))
    (hstable : ∀ i v v' a, S.Step (S.key i) v v' → S.Out i v a → S.Out i v' a)
    (hstep : S.Step (S.key i) (S.own i pool.state) (S.own i s))
    (hfollows : S.Follows i ((pool.threads i).calls + 1) p (S.own i s)) :
    Separate S procs (pool.resume i p s) := by
  refine h.resume hframed (fun j hj hkey hbusy => absurd hbusy (honly j hj hkey)) ?_
    (.of_follows (Nat.succ_pos _) hfollows) fun hout _ => hfollows.idle (Nat.succ_pos _) hout
  intro j hkey a ha
  unfold Sections.own at *
  exact hstable j _ _ a (hkey ▸ hstep) ha

theorem Separate.resume_past (h : Separate S procs pool) (hgood : S.G s)
    (hviews : ∀ k, S.view k s = S.view k pool.state)
    (hpast : ∀ n, S.inside (n + 1) → S.inside n) (hin : ¬S.inside (pool.threads i).calls)
    (hreturns : p.Returns (S.Out i (S.own i pool.state))) (hwithin : p.Within S.Quiet) :
    Separate S procs (pool.resume i p s) := by
  have hsame : S.own i s = S.own i pool.state := hviews _
  have hout : ¬S.inside ((pool.threads i).calls + 1) := fun h => hin (hpast _ h)
  refine h.resume ⟨hgood, fun k _ => hviews k⟩ (fun _ _ _ _ => ⟨hsame, fun h => hout h.2.1⟩)
    (fun j hkey a ha => ?_) (.past (fun _ => hout) (hsame ▸ hreturns) hwithin) fun _ hrest => ?_
  · unfold Sections.own at *
    rw [hkey] at ha ⊢
    exact hsame ▸ ha
  · refine hsame ▸ h.idle _ ?_
    intro j hkey
    by_cases hj : j = i
    · exact hj ▸ fun h => hin h.2.1
    · exact hrest j hj hkey

theorem Separate.step (h : Separate S procs pool) {e : ι × Option Err} (hfirst : S.inside 0)
    (hpast : ∀ n, S.inside (n + 1) → S.inside n) (hrefl : ∀ k v, S.Step k v v)
    (hstable : ∀ i v v' a, S.Step (S.key i) v v' → S.Out i v a → S.Out i v' a)
    (hprocs : ∀ i v, S.I (S.key i) v → S.Follows i 0 (procs i) v)
    (hexcl : (pool.threads e.1).calls = 0 → ∀ j, j ≠ e.1 → S.key j = S.key e.1 →
      ¬S.Busy (pool.threads j))
    (hallowed : (pool.threads e.1).result.isNone →
      S.Allowed e.1 (pool.threads e.1).calls e.2 pool.state) :
    (∀ k, S.Step k (S.view k pool.state) (S.view k (pool.step e).state))
      ∧ Separate S procs (pool.step e) := by
  obtain ⟨i, fault⟩ := e
  cases hproc : (pool.threads i).proc with
  | done a =>
    rw [Pool.step, hproc]
    exact ⟨fun k => hrefl k _, h⟩
  | call update next fail =>
    have hnone : (pool.threads i).result.isNone := by rw [Thread.result, hproc]; rfl
    have hfollows := h.follows hprocs hexcl hnone
    have hafter := h.past (i := i) hfirst
    rw [hproc] at hfollows hafter
    cases fault with
    | none =>
      rw [Pool.step, hproc]
      by_cases hin : S.inside (pool.threads i).calls
      · obtain ⟨honly, hfollows⟩ := hfollows hin
        obtain ⟨hframed, hstep, hrest⟩ :=
          (hfollows.1 hin pool.state h.good rfl).1 (hallowed hnone)
        refine ⟨fun k => ?_, h.resume_inside hframed honly hstable hstep hrest⟩
        by_cases hk : k = S.key i
        · exact hk ▸ hstep
        · exact (hframed.2 k hk).symm ▸ hrefl k _
      · obtain ⟨hreturns, hquiet, hwithin, -⟩ := hafter hin
        obtain ⟨hgood, hviews⟩ := hquiet pool.state h.good
        exact ⟨fun k => (hviews k).symm ▸ hrefl k _,
          h.resume_past hgood hviews hpast hin (hreturns.1 _) (hwithin _)⟩
    | some err =>
      rw [Pool.step, hproc]
      refine ⟨fun k => hrefl k _, ?_⟩
      by_cases hin : S.inside (pool.threads i).calls
      · obtain ⟨honly, hfollows⟩ := hfollows hin
        exact h.resume_inside ⟨h.good, fun _ _ => rfl⟩ honly hstable (hrefl _ _)
          ((hfollows.1 hin pool.state h.good rfl).2 err (hallowed hnone))
      · obtain ⟨hreturns, -, -, hwithin⟩ := hafter hin
        exact h.resume_past h.good (fun _ => rfl) hpast hin (hreturns.2 err) (hwithin err)

variable {schedule : List (ι × Option Err)} {P : Pool ι σ α → ι × Option Err → Prop} (key : ι → κ)
  (view : κ → σ → ν)

theorem everyState_of_alone (I J : κ → ν → Prop) (Allowed : ι → Nat → Option Err → σ → Prop)
    {m : Nat} (hm : 0 < m) (hIJ : ∀ k v, I k v → J k v) (hprocs : ∀ i v, I (key i) v →
      (procs i).Restores view (key i) (I (key i)) (J (key i)) (Allowed i) m 0 v)
    (hs : ∀ k, I k (view k s)) (halone : ∀ pool e, P pool e → Alone key m pool e)
    (hallowed : ∀ pool e, P pool e → (pool.threads e.1).result.isNone →
      Allowed e.1 (pool.threads e.1).calls e.2 pool.state)
    (hschedule : EveryStep Pool.step P (start s procs) schedule) :
    EveryState Pool.step (fun pool => ∀ k, J k (view k pool.state)
        ∧ (Idle key m pool k → I k (view k pool.state)))
      (start s procs) schedule := by
  have hfollows := fun i v hv => (hprocs i v hv).follows hIJ
  refine everyState_of_everyStep
    (I := fun pool => Separate ⟨key, view, fun _ => True, I, fun k v v' => J k v → J k v',
      fun _ _ _ => True, Allowed, (· < m)⟩ procs pool ∧ ∀ k, J k (view k pool.state))
    (fun pool h k => ⟨h.2 k, h.1.idle k⟩) ?_
    ⟨.start hfollows trivial hs, fun k => hIJ k _ (hs k)⟩ hschedule
  rintro pool e ⟨h, hJ⟩ hP
  obtain ⟨hsteps, hnext⟩ := h.step hm (fun _ => Nat.lt_of_succ_lt) (fun _ _ h => h)
    (fun _ _ _ _ _ _ => trivial) hfollows (halone pool e hP) (hallowed pool e hP)
  exact ⟨hnext, fun k => hsteps k (hJ k)⟩

theorem everyState_of_excluded (G : σ → Prop) (I : κ → ν → Prop) (Step : κ → ν → ν → Prop)
    (Out : ι → ν → α → Prop) (Allowed : Nat → Option Err → Prop) (hrefl : ∀ k v, Step k v v)
    (hstable : ∀ i v v' a, Step (key i) v v' → Out i v a → Out i v' a)
    (hprocs : ∀ i v, I (key i) v → (procs i).Serves view (key i) G (I (key i)) (Step (key i))
      (Out i) Allowed 0 v) (hgood : G s) (hs : ∀ k, I k (view k s))
    (hexcl : ∀ pool e, P pool e → Excluded key pool e)
    (hallowed : ∀ pool e, P pool e → Allowed (pool.threads e.1).calls e.2)
    (hschedule : EveryStep Pool.step P (start s procs) schedule) :
    EveryStep Pool.step (fun pool e => ∀ k, Step k (view k pool.state) (view k (pool.step e).state))
        (start s procs) schedule
      ∧ EveryState Pool.step
        (fun pool => ∀ i a, (pool.threads i).result = some a → Out i (view (key i) pool.state) a)
        (start s procs) schedule := by
  have hfollows := fun i v hv => (hprocs i v hv).follows
  have hstart : Separate ⟨key, view, G, I, Step, Out, fun _ n fault _ => Allowed n fault,
      fun _ => True⟩ procs (start s procs) := .start hfollows hgood hs
  have hstep := fun pool e (h : Separate ⟨key, view, G, I, Step, Out,
      fun _ n fault _ => Allowed n fault, fun _ => True⟩ procs pool) (hP : P pool e) =>
    h.step trivial (fun _ _ => trivial) hrefl hstable hfollows
      (fun hcalls j hj hkey hbusy => hexcl pool e hP hcalls j hj hkey ⟨hbusy.1, hbusy.2.2⟩)
      fun _ => hallowed pool e hP
  exact ⟨everyStep_of_everyStep (fun pool e h hP => (hstep pool e h hP).1)
      (fun pool e h hP => (hstep pool e h hP).2) hstart hschedule,
    everyState_of_everyStep (fun pool h i a => h.out) (fun pool e h hP => (hstep pool e h hP).2)
      hstart hschedule⟩

end Step

end Pool

end Go
