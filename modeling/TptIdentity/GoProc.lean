import TptIdentity.GoBasic

/-!
# Procedures over a shared state

A function that talks to a database is a tree of calls (`Proc`), run against a pattern of faults
(`run`). `wp` is the weakest precondition under every pattern of faults. `Within R` says that
every call relates the states before and after it by `R`.
-/

namespace Go

/-- A call applies `update` and goes on with `next` of the state it was made in, or it fails,
changes nothing and goes on with `fail`. -/
inductive Proc (σ α : Type) where
  | done (a : α)
  | call (update : σ → σ) (next : σ → Proc σ α) (fail : Err → Proc σ α)

namespace Proc

variable {σ α β : Type}

def bind : Proc σ α → (α → Proc σ β) → Proc σ β
  | done a, k => k a
  | call update next fail, k => call update (fun s => (next s).bind k) fun e => (fail e).bind k

instance : Monad (Proc σ) where
  pure := done
  bind := bind

theorem bind_done (p : Proc σ α) : p.bind done = p := by
  induction p with
  | done a => rfl
  | call update next fail ihnext ihfail => simp only [bind, ihnext, ihfail]

variable {γ : Type} {p : Proc σ α} {Q : α → Prop} {s : σ} {Q' : α → σ → Prop}

theorem bind_bind (p : Proc σ α) (k : α → Proc σ β) (l : β → Proc σ γ) :
    (p.bind k).bind l = p.bind fun a => (k a).bind l := by
  induction p with
  | done a => rfl
  | call update next fail ihnext ihfail => simp only [bind, ihnext, ihfail]

instance : LawfulMonad (Proc σ) := LawfulMonad.mk' _ bind_done (fun _ _ => rfl) bind_bind

def query (op : σ → Res α × σ) : Proc σ (Res α) :=
  call (fun s => (op s).2) (fun s => done (op s).1) fun e => done (.err e)

def select (op : σ → Res α) : Proc σ (Res α) := query fun s => (op s, s)

def exec (op : σ → σ) : Proc σ (Res Unit) := query fun s => (.ok (), op s)

def run : Proc σ α → Faults → σ → α × σ
  | done a, _, s => (a, s)
  | call update next fail, faults, s =>
    match faults 0 with
    | none => (next s).run (fun n => faults (n + 1)) (update s)
    | some e => (fail e).run (fun n => faults (n + 1)) s

theorem run_bind_pure (f : α → β) : ∀ (p : Proc σ α) (faults : Faults) (s : σ),
    (p >>= fun a => pure (f a)).run faults s = (f (p.run faults s).1, (p.run faults s).2)
  | done _, _, _ => rfl
  | call update next fail, faults, s => by
    change (call update (fun s => next s >>= fun a => pure (f a))
      fun e => fail e >>= fun a => pure (f a)).run faults s = _
    unfold run
    split
    · exact run_bind_pure f ..
    · exact run_bind_pure f ..

theorem run_query (op : σ → Res α × σ) (faults : Faults) (s : σ) :
    (query op).run faults s
      = match faults 0 with
        | none => op s
        | some e => (.err e, s) := by
  cases h : faults 0 with
  | none => simp only [query, run, h]
  | some e => simp only [query, run, h]

theorem run_query_bind (op : σ → Res α × σ) (k : Res α → Proc σ β) (faults : Faults) (s : σ) :
    (query op >>= k).run faults s
      = match faults 0 with
        | none => (k (op s).1).run (fun n => faults (n + 1)) (op s).2
        | some e => (k (.err e)).run (fun n => faults (n + 1)) s := by
  change (call (fun s => (op s).2) (fun s => k (op s).1) fun e => k (.err e)).run faults s = _
  cases h : faults 0 with
  | none => simp only [run, h]
  | some e => simp only [run, h]

variable (op : σ → Res α)

variable {q : Proc σ α} (a : α) (f : Res α → β)

theorem run_lookup_bind (k : β → Proc σ γ) (faults : Faults) (s : σ) :
    ((do let r ← select op; return f r) >>= k).run faults s
      = match faults 0 with
        | none => (k (f (op s))).run (fun n => faults (n + 1)) s
        | some e => (k (f (.err e))).run (fun n => faults (n + 1)) s := by
  rw [bind_assoc]
  exact run_query_bind ..

theorem run_bind (k : α → Proc σ β) : ∀ (p : Proc σ α) (s : σ), (p >>= k).run (fun _ => none) s
      = (k (p.run (fun _ => none) s).1).run (fun _ => none) (p.run (fun _ => none) s).2
  | done _, _ => rfl
  | call update next _, s => run_bind k (next s) (update s)

/-! ## Weakest preconditions -/

def wp : Proc σ α → (α → σ → Prop) → σ → Prop
  | done a, Q, s => Q a s
  | call update next fail, Q, s => (next s).wp Q (update s) ∧ ∀ e, (fail e).wp Q s

@[simp] theorem wp_pure (Q : α → σ → Prop) (s : σ) : (pure a : Proc σ α).wp Q s ↔ Q a s := Iff.rfl

@[simp] theorem wp_select (Q : Res α → σ → Prop) (s : σ) :
    (select op).wp Q s ↔ Q (op s) s ∧ ∀ e, Q (.err e) s := Iff.rfl

@[simp] theorem wp_exec (op : σ → σ) (Q : Res Unit → σ → Prop) (s : σ) :
    (exec op).wp Q s ↔ Q (.ok ()) (op s) ∧ ∀ e, Q (.err e) s := Iff.rfl

theorem wp_lookup (Q : β → σ → Prop) (s : σ) :
    (do let r ← select op; return f r : Proc σ β).wp Q s
      ↔ Q (f (op s)) s ∧ ∀ e, Q (f (.err e)) s := Iff.rfl

@[simp] theorem wp_bind (p : Proc σ α) (k : α → Proc σ β) (Q : β → σ → Prop) (s : σ) :
    (p >>= k).wp Q s ↔ p.wp (fun a s' => (k a).wp Q s') s := by
  change (p.bind k).wp Q s ↔ _
  induction p generalizing s with
  | done a => exact Iff.rfl
  | call update next fail ihnext ihfail =>
    simp only [bind, wp, ihnext, ihfail]

variable {c : Prop}

theorem wp_ite [Decidable c] {Q : α → σ → Prop} (hp : c → p.wp Q s) (hq : ¬c → q.wp Q s) :
    (if c then p else q).wp Q s := by
  split
  · next h => exact hp h
  · next h => exact hq h

theorem wp_mono {Q : α → σ → Prop} (hQ : ∀ a s, Q a s → Q' a s) :
    ∀ {p : Proc σ α} {s : σ}, p.wp Q s → p.wp Q' s
  | done a, s, h => hQ a s h
  | call _ _ _, _, h => ⟨wp_mono hQ h.1, fun e => wp_mono hQ (h.2 e)⟩

theorem wp_seq {k : α → Proc σ β} {Q : β → σ → Prop}
    (h : p.wp Q' s) (hk : ∀ a s', Q' a s' → (k a).wp Q s') : (p >>= k).wp Q s :=
  (wp_bind ..).mpr (wp_mono hk h)

theorem wp_lookup_bind {op : σ → Res α} {f : Res α → β} {k : β → Proc σ γ}
    {Q : γ → σ → Prop} (h : (k (f (op s))).wp Q s) (he : ∀ e, (k (f (.err e))).wp Q s) :
    ((do let r ← select op; return f r) >>= k).wp Q s :=
  (wp_bind ..).mpr ⟨h, he⟩

theorem wp_exec_bind {op : σ → σ} {k : Res Unit → Proc σ β} {Q : β → σ → Prop}
    (h : (k (.ok ())).wp Q (op s)) (he : ∀ e, (k (.err e)).wp Q s) : (exec op >>= k).wp Q s :=
  (wp_bind ..).mpr ⟨h, he⟩

theorem wp_and {Q : α → σ → Prop} : ∀ {p : Proc σ α} {s : σ}, p.wp Q s → p.wp Q' s →
    p.wp (fun a s' => Q a s' ∧ Q' a s') s
  | done _, _, h, h' => ⟨h, h'⟩
  | call _ _ _, _, h, h' => ⟨wp_and h.1 h'.1, fun e => wp_and (h.2 e) (h'.2 e)⟩

theorem wp_true : ∀ (p : Proc σ α) (s : σ), p.wp (fun _ _ => True) s
  | done _, _ => trivial
  | call update next _, s => ⟨wp_true (next s) (update s), fun _ => wp_true _ s⟩

theorem wp_run {Q : α → σ → Prop} : ∀ {p : Proc σ α} {s : σ}, p.wp Q s →
    ∀ faults, Q (p.run faults s).1 (p.run faults s).2
  | done _, _, h, _ => h
  | call update next fail, s, h, faults => by
    unfold run
    split
    · exact wp_run h.1 _
    · exact wp_run (h.2 _) _

/-! ## Steps -/

def Within (R : σ → σ → Prop) : Proc σ α → Prop
  | done _ => True
  | call update next fail =>
    (∀ s, R s (update s)) ∧ (∀ s, (next s).Within R) ∧ ∀ e, (fail e).Within R

variable {k : α → Proc σ β}

section Within

variable {R : σ → σ → Prop}

theorem within_query {op : σ → Res α × σ} (h : ∀ s, R s (op s).2) : (query op).Within R :=
  ⟨h, fun _ => trivial, fun _ => trivial⟩

theorem within_select (hrefl : ∀ s, R s s) (op : σ → Res α) : (select op).Within R :=
  within_query hrefl

theorem within_exec {op : σ → σ} (h : ∀ s, R s (op s)) : (exec op).Within R := within_query h

theorem within_bind {p : Proc σ α} (hp : p.Within R) (hk : ∀ a, (k a).Within R) :
    (p >>= k).Within R := by
  induction p with
  | done a => exact hk a
  | call update next fail ihnext ihfail =>
    exact ⟨hp.1, fun s => ihnext s (hp.2.1 s), fun e => ihfail e (hp.2.2 e)⟩

theorem within_ite [Decidable c] {p : Proc σ α} (hp : p.Within R) (hq : q.Within R) :
    (if c then p else q).Within R := by
  split
  · exact hp
  · exact hq

theorem within_of_forall (h : ∀ s s', R s s') : ∀ p : Proc σ α, p.Within R
  | done _ => trivial
  | call _ next fail =>
    ⟨fun _ => h _ _, fun s => within_of_forall h (next s), fun e => within_of_forall h (fail e)⟩

theorem Within.mono {R' : σ → σ → Prop} (h : ∀ s s', R s s' → R' s s') :
    ∀ {p : Proc σ α}, p.Within R → p.Within R'
  | done _, _ => trivial
  | call _ _ _, hp =>
    ⟨fun s => h _ _ (hp.1 s), fun s => (hp.2.1 s).mono h, fun e => (hp.2.2 e).mono h⟩

theorem Within.wp (hrefl : ∀ s, R s s) (htrans : ∀ {a b c}, R a b → R b c → R a c) :
    ∀ {p : Proc σ α}, p.Within R → ∀ s, p.wp (fun _ s' => R s s') s
  | done _, _, s => hrefl s
  | call _ _ _, h, s =>
    ⟨wp_mono (fun _ _ h' => htrans (h.1 s) h') ((h.2.1 s).wp hrefl htrans _),
      fun e => (h.2.2 e).wp hrefl htrans s⟩

theorem wp_bind_reads {p : Proc σ α} {Q : β → σ → Prop} {s : σ} (hp : p.Within (· = ·))
    (hk : ∀ a, (k a).wp Q s) : (p >>= k).wp Q s := by
  refine (wp_bind ..).mpr (wp_mono (fun a s' h => ?_) (hp.wp (fun _ => rfl) Eq.trans s))
  rw [← h]
  exact hk a

end Within

/-! ## Counting calls -/

/-- The procedure makes exactly `n` calls, whatever they return. -/
def Takes : Proc σ α → Nat → Prop
  | done _, n => n = 0
  | call _ _ _, 0 => False
  | call _ next fail, n + 1 => (∀ s, (next s).Takes n) ∧ ∀ e, (fail e).Takes n

theorem takes_bind {n : Nat} (hk : ∀ a, (k a).Takes n) :
    ∀ {p : Proc σ α} {m : Nat}, p.Takes m → (p >>= k).Takes (m + n)
  | done a, m, hp => by
    obtain rfl : m = 0 := hp
    rw [Nat.zero_add]
    exact hk a
  | call _ _ _, 0, hp => hp.elim
  | call _ _ _, m + 1, hp => by
    rw [Nat.add_right_comm]
    exact ⟨fun s => takes_bind hk (hp.1 s), fun e => takes_bind hk (hp.2 e)⟩

theorem run_bind_of_takes (k : α → Proc σ β) : ∀ {p : Proc σ α} {n : Nat}, p.Takes n →
    ∀ (faults : Faults) (s : σ), (p >>= k).run faults s
      = (k (p.run faults s).1).run (fun m => faults (m + n)) (p.run faults s).2
  | done a, n, hp, faults, s => by
    obtain rfl : n = 0 := hp
    rfl
  | call _ _ _, 0, hp, _, _ => hp.elim
  | call update next fail, n + 1, hp, faults, s => by
    change (call update (fun s => next s >>= k) fun e => fail e >>= k).run faults s = _
    cases h : faults 0 with
    | none =>
      simp only [run, h]
      exact run_bind_of_takes k (hp.1 s) _ _
    | some e =>
      simp only [run, h]
      exact run_bind_of_takes k (hp.2 e) _ _

/-! ## Results -/

def Returns (Q : α → Prop) : Proc σ α → Prop
  | done a => Q a
  | call _ next fail => (∀ s, (next s).Returns Q) ∧ ∀ e, (fail e).Returns Q

theorem returns_pure {a : α} (h : Q a) : (pure a : Proc σ α).Returns Q := h

theorem returns_ite [Decidable c] (hp : p.Returns Q) (hq : q.Returns Q) :
    (if c then p else q).Returns Q := by
  split
  · exact hp
  · exact hq

theorem Returns.bind {P : α → Prop} {Q : β → Prop} (hk : ∀ a, P a → (k a).Returns Q) :
    ∀ {p : Proc σ α}, p.Returns P → (p >>= k).Returns Q
  | done a, h => hk a h
  | call _ _ _, h => ⟨fun s => (h.1 s).bind hk, fun e => (h.2 e).bind hk⟩

theorem Returns.mono {P : α → Prop} (h : ∀ a, P a → Q a) :
    ∀ {p : Proc σ α}, p.Returns P → p.Returns Q
  | done a, hp => h a hp
  | call _ _ _, hp => ⟨fun s => (hp.1 s).mono h, fun e => (hp.2 e).mono h⟩

theorem returns_of_forall (h : ∀ a, Q a) : ∀ p : Proc σ α, p.Returns Q
  | done a => h a
  | call _ next fail =>
    ⟨fun s => returns_of_forall h (next s), fun e => returns_of_forall h (fail e)⟩

theorem returns_bind {Q : β → Prop} (hk : ∀ a, (k a).Returns Q) (p : Proc σ α) :
    (p >>= k).Returns Q := (returns_of_forall (fun _ => trivial) p).bind fun a _ => hk a

theorem Returns.run : ∀ {p : Proc σ α}, p.Returns Q →
    ∀ (faults : Faults) (s : σ), Q (p.run faults s).1
  | done _, h, _, _ => h
  | call _ _ _, h, faults, s => by
    unfold Proc.run
    split
    · exact (h.1 s).run _ _
    · exact (h.2 _).run _ _

/-! ## Two runs -/

/-- From states related by `R`, two procedures keep them related and return the same. -/
def Alike (R : σ → σ → Prop) : Proc σ α → Proc σ α → Prop
  | done a, done a' => a = a'
  | call update next fail, call update' next' fail' =>
    (∀ s s', R s s' → R (update s) (update' s') ∧ (next s).Alike R (next' s'))
      ∧ ∀ e, (fail e).Alike R (fail' e)
  | _, _ => False

section Alike

variable {R : σ → σ → Prop}

theorem alike_bind {k' : α → Proc σ β} (hk : ∀ a, (k a).Alike R (k' a)) :
    ∀ {p p' : Proc σ α}, p.Alike R p' → (p >>= k).Alike R (p' >>= k')
  | done a, done _, h => by
    obtain rfl : a = _ := h
    exact hk a
  | call _ _ _, call _ _ _, h =>
    ⟨fun s s' hs => ⟨(h.1 s s' hs).1, alike_bind hk (h.1 s s' hs).2⟩,
      fun e => alike_bind hk (h.2 e)⟩

theorem Alike.run : ∀ {p p' : Proc σ α} {s s' : σ}, p.Alike R p' → R s s' → ∀ faults,
    (p.run faults s).1 = (p'.run faults s').1 ∧ R (p.run faults s).2 (p'.run faults s').2
  | done _, done _, _, _, h, hs, _ => ⟨h, hs⟩
  | call _ _ _, call _ _ _, s, s', h, hs, faults => by
    unfold Proc.run
    split
    · exact (h.1 s s' hs).2.run (h.1 s s' hs).1 _
    · exact (h.2 _).run hs _

end Alike

/-! ## Calls, one by one -/

/-- Every call is a `W`, and from states related by `R` the procedure runs alike. -/
structure Uniform (W R : σ → σ → Prop) (p : Proc σ α) : Prop where
  within : p.Within W
  alike : p.Alike R p

section Uniform

variable {W R : σ → σ → Prop} {p q : Proc σ α}

theorem Uniform.pure : (Pure.pure a : Proc σ α).Uniform W R := ⟨trivial, rfl⟩

theorem uniform_query {op : σ → Res α × σ} (hW : ∀ s, W s (op s).2)
    (hR : ∀ s s', R s s' → (op s).1 = (op s').1 ∧ R (op s).2 (op s').2) :
    (query op).Uniform W R :=
  ⟨within_query hW, fun s s' h => ⟨(hR s s' h).2, (hR s s' h).1⟩, fun _ => rfl⟩

theorem uniform_select {op : σ → Res α} (hW : ∀ s, W s s)
    (hR : ∀ s s', R s s' → op s = op s') : (select op).Uniform W R :=
  uniform_query hW fun s s' h => ⟨hR s s' h, h⟩

theorem uniform_exec {op : σ → σ} (hW : ∀ s, W s (op s))
    (hR : ∀ s s', R s s' → R (op s) (op s')) : (exec op).Uniform W R :=
  uniform_query hW fun s s' h => ⟨rfl, hR s s' h⟩

theorem uniform_bind (hp : p.Uniform W R) (hk : ∀ a, (k a).Uniform W R) : (p >>= k).Uniform W R :=
  ⟨within_bind hp.within fun a => (hk a).within, alike_bind (fun a => (hk a).alike) hp.alike⟩

theorem uniform_ite [Decidable c] (hp : p.Uniform W R) (hq : q.Uniform W R) :
    (if c then p else q).Uniform W R := by
  split
  · exact hp
  · exact hq

theorem Uniform.mono {W' : σ → σ → Prop} (h : ∀ s s', W s s' → W' s s') (hp : p.Uniform W R) :
    p.Uniform W' R := ⟨hp.within.mono h, hp.alike⟩

structure Does (W R : σ → σ → Prop) (Q : α → Prop) (p : Proc σ α) : Prop
    extends Uniform W R p where
  returns : p.Returns Q

variable {Q : α → Prop}

theorem does_pure {a : α} (h : Q a) : (Pure.pure a : Proc σ α).Does W R Q := ⟨.pure a, h⟩

theorem does_bind {Q : β → Prop} (hp : p.Uniform W R) (hk : ∀ a, (k a).Does W R Q) :
    (p >>= k).Does W R Q :=
  ⟨uniform_bind hp fun a => (hk a).toUniform, returns_bind (fun a => (hk a).returns) p⟩

theorem does_ite [Decidable c] (hp : p.Does W R Q) (hq : q.Does W R Q) :
    (if c then p else q).Does W R Q := by
  split
  · exact hp
  · exact hq

end Uniform

end Proc

/-! ## Runs

A system takes one step after another; `next s i` is the state after the
step `i` in the state `s`. -/

section Runs

variable {σ ι : Type} (next : σ → ι → σ)

def EveryState (Q : σ → Prop) : σ → List ι → Prop
  | s, [] => Q s
  | s, i :: steps => Q s ∧ EveryState Q (next s i) steps

def EveryStep (P : σ → ι → Prop) : σ → List ι → Prop
  | _, [] => True
  | s, i :: steps => P s i ∧ EveryStep P (next s i) steps

instance decidableEveryState {Q : σ → Prop} [DecidablePred Q] :
    ∀ (s : σ) (steps : List ι), Decidable (EveryState next Q s steps)
  | s, [] => inferInstanceAs (Decidable (Q s))
  | s, i :: steps =>
    have := decidableEveryState (Q := Q) (next s i) steps
    inferInstanceAs (Decidable (Q s ∧ EveryState next Q (next s i) steps))

instance decidableEveryStep {P : σ → ι → Prop} [∀ s i, Decidable (P s i)] :
    ∀ (s : σ) (steps : List ι), Decidable (EveryStep next P s steps)
  | _, [] => inferInstanceAs (Decidable True)
  | s, i :: steps =>
    have := decidableEveryStep (P := P) (next s i) steps
    inferInstanceAs (Decidable (P s i ∧ EveryStep next P (next s i) steps))

variable {next} {I Q : σ → Prop} {F P : σ → ι → Prop}

theorem everyState_of_everyStep (hinv : ∀ s, I s → Q s)
    (hkeep : ∀ s i, I s → P s i → I (next s i)) :
    ∀ {s : σ} {steps : List ι}, I s → EveryStep next P s steps → EveryState next Q s steps
  | s, [], hs, _ => hinv s hs
  | s, i :: _, hs, ⟨hP, hrest⟩ =>
    ⟨hinv s hs, everyState_of_everyStep hinv hkeep (hkeep s i hs hP) hrest⟩

theorem everyStep_of_forall (h : ∀ s i, P s i) :
    ∀ {s : σ} {steps : List ι}, EveryStep next P s steps
  | _, [] => trivial
  | s, i :: _ => ⟨h s i, everyStep_of_forall h⟩

theorem everyState_mono (h : ∀ s, I s → Q s) :
    ∀ {s : σ} {steps : List ι}, EveryState next I s steps → EveryState next Q s steps
  | s, [], hs => h s hs
  | s, _ :: _, ⟨hs, hrest⟩ => ⟨h s hs, everyState_mono h hrest⟩

theorem everyState_first : ∀ {s : σ} {steps : List ι}, EveryState next Q s steps → Q s
  | _, [], h => h
  | _, _ :: _, h => h.1

theorem everyState_last : ∀ {s : σ} {steps : List ι}, EveryState next Q s steps →
    Q (steps.foldl next s)
  | _, [], h => h
  | s, i :: _, h => everyState_last (s := next s i) h.2

theorem everyStep_at : ∀ {s : σ} {before after : List ι} {i : ι},
    EveryStep next P s (before ++ i :: after) → P (before.foldl next s) i
  | _, [], _, _, h => h.1
  | s, j :: _, _, _, h => everyStep_at (s := next s j) h.2

theorem everyState_and :
    ∀ {s : σ} {steps : List ι}, EveryState next I s steps → EveryState next Q s steps →
      EveryState next (fun s => I s ∧ Q s) s steps
  | _, [], hI, hQ => ⟨hI, hQ⟩
  | _, _ :: _, ⟨hI, hI'⟩, ⟨hQ, hQ'⟩ => ⟨⟨hI, hQ⟩, everyState_and hI' hQ'⟩

theorem everyStep_congr {C : σ → ι → Prop} (h : ∀ s i, F s i → (P s i ↔ C s i)) :
    ∀ {s : σ} {steps : List ι}, EveryStep next F s steps →
      (EveryStep next P s steps ↔ EveryStep next C s steps)
  | _, [], _ => Iff.rfl
  | s, i :: _, ⟨hF, hrest⟩ => and_congr (h s i hF) (everyStep_congr h hrest)

theorem everyStep_of_everyStep {C : σ → ι → Prop} (hstep : ∀ s i, I s → P s i → C s i)
    (hkeep : ∀ s i, I s → P s i → I (next s i)) :
    ∀ {s : σ} {steps : List ι}, I s → EveryStep next P s steps → EveryStep next C s steps
  | _, [], _, _ => trivial
  | s, i :: _, hs, ⟨hP, hrest⟩ =>
    ⟨hstep s i hs hP, everyStep_of_everyStep hstep hkeep (hkeep s i hs hP) hrest⟩

/-- Steps with `P` keep an invariant that implies `Q`, and a step that reaches a state with `Q` has
`P`. -/
theorem everyState_iff_everyStep (hinv : ∀ s, I s → Q s)
    (hkeep : ∀ s i, I s → F s i → P s i → I (next s i))
    (hback : ∀ s i, I s → F s i → Q (next s i) → P s i) :
    ∀ {s : σ} {steps : List ι}, I s → EveryStep next F s steps →
      (EveryState next Q s steps ↔ EveryStep next P s steps)
  | s, [], hs, _ => ⟨fun _ => trivial, fun _ => hinv s hs⟩
  | s, i :: steps, hs, ⟨hF, hrest⟩ => by
    constructor
    · rintro ⟨-, hQ⟩
      have hP := hback s i hs hF (everyState_first hQ)
      exact ⟨hP, (everyState_iff_everyStep hinv hkeep hback (hkeep s i hs hF hP) hrest).mp hQ⟩
    · rintro ⟨hP, hsteps⟩
      exact ⟨hinv s hs,
        (everyState_iff_everyStep hinv hkeep hback (hkeep s i hs hF hP) hrest).mpr hsteps⟩

theorem everyState_and_everyStep_iff (h : ∀ s i, I s → (I (next s i) ∧ F s i ↔ P s i)) :
    ∀ {s : σ} {steps : List ι}, I s →
      (EveryState next I s steps ∧ EveryStep next F s steps ↔ EveryStep next P s steps)
  | s, [], hs => ⟨fun _ => trivial, fun _ => ⟨hs, trivial⟩⟩
  | s, i :: steps, hs => by
    constructor
    · rintro ⟨⟨-, hI⟩, hF, hrest⟩
      have hnext := everyState_first hI
      exact ⟨(h s i hs).mp ⟨hnext, hF⟩, (everyState_and_everyStep_iff h hnext).mp ⟨hI, hrest⟩⟩
    · rintro ⟨hP, hrest⟩
      obtain ⟨hnext, hF⟩ := (h s i hs).mpr hP
      obtain ⟨hI, hF'⟩ := (everyState_and_everyStep_iff h hnext).mpr hrest
      exact ⟨⟨hs, hI⟩, hF, hF'⟩

end Runs

end Go
