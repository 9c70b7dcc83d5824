import Mathlib.Logic.Relation
import TptIdentity.TokenSingleUse

/-!
# Replayed refresh tokens

When an exchanged refresh token is presented again, its row is deleted and nothing else
(`replayed_family_accepted`). `replay_ends_family` says in which runs no descendant of a
replayed token is accepted.
-/

namespace TptIdentity.Oidc

open Go Store Proc List

/-! ## Rotations -/

def Step.presents : Step → Option Bytes
  | .token r =>
    r.form.bind fun form =>
      if grantType form = "refresh_token" then some (param form "refresh_token") else none
  | _ => none

variable {st : State} {old : Bytes}

section Trails

variable (pl : Platform)

def Call.Accepts (st : State) (c : Call) (raw : Bytes) : Prop :=
  c.step.presents = some raw ∧ (c.answer pl st).success = true
deriving Decidable

def Call.rotation (st : State) (c : Call) : List (Bytes × Bytes) :=
  match c.step.presents, generateRefreshToken pl.provider c.env.rand with
  | some old, .ok (new, _) => if (c.answer pl st).success then [(old, new)] else []
  | _, _ => []

structure Trail where
  state : State
  rotations : List (Bytes × Bytes)
  replayed : List Bytes

variable {tr : Trail}

def Trail.replay (tr : Trail) (c : Call) : List Bytes :=
  c.step.presents.toList.filter fun raw => (tr.rotations.map Prod.fst).contains raw

def Trail.next (tr : Trail) (c : Call) : Trail :=
  { state := afterCall pl tr.state c
    rotations := tr.rotations ++ c.rotation pl tr.state
    replayed := tr.replayed ++ tr.replay c }

def Trail.start (st : State) : Trail := ⟨st, [], []⟩

def Rotated (rotations : List (Bytes × Bytes)) (old new : Bytes) : Prop := (old, new) ∈ rotations

/-- No accepted token descends from one that was replayed before. -/
def Trail.DetectsTheft (tr : Trail) (c : Call) : Prop :=
  ∀ raw, c.Accepts pl tr.state raw → ∀ old ∈ tr.replayed,
    ¬Relation.TransGen (Rotated tr.rotations) old raw

/-- It draws no recorded token, and at a replay neither its token nor a descendant is unused. -/
structure Trail.Contained (tr : Trail) (c : Call) : Prop where
  fresh : ∀ e ∈ tr.rotations, ¬Draws pl.provider c.env.rand (hashToken pl.provider e.1)
    ∧ ¬Draws pl.provider c.env.rand (hashToken pl.provider e.2)
  family : ∀ old ∈ tr.replay c, ∀ raw, Relation.ReflTransGen (Rotated tr.rotations) old raw →
    ¬Live tr.state.db (hashToken pl.provider raw)

variable {pl}

variable {c : Call}

theorem Call.Accepts.live {raw : Bytes} (h : c.Accepts pl st raw) :
    Live st.db (hashToken pl.provider raw) := by
  obtain ⟨hpresents, hsuccess⟩ := h
  obtain ⟨env, faults, step⟩ := c
  cases step with
  | token r =>
    by_contra hspent
    obtain ⟨form, hform, hraw⟩ := Option.bind_eq_some_iff.mp hpresents
    split at hraw
    · next hgrant =>
      obtain rfl := Option.some.inj hraw
      have hasks : AsksFor r "refresh_token" := by
        intro form' hform'
        rw [hform] at hform'
        exact Option.some.inj hform' ▸ hgrant
      have hredeems : Redeems Answer.success (fun _ => True)
          (RefreshSpent pl.provider (formParam r "refresh_token"))
          (fun (_ : Unit) _ _ => True) 2 (tokenHandler pl.provider env r) :=
        redeems_refreshToken hasks
      rw [formParam_eq hform] at hredeems
      rw [Call.answer, run_token] at hsuccess
      exact absurd (hsuccess.symm.trans (hredeems.run_of_spent hspent faults)) (by decide)
    · cases hraw
  | _ => cases hpresents

theorem Call.mem_rotation {new : Bytes} (h : (old, new) ∈ c.rotation pl st) :
    c.Accepts pl st old := by
  unfold Call.rotation at h
  split at h
  · next hpresents _ =>
    split at h
    · next hsuccess =>
      obtain ⟨rfl, -⟩ := Prod.mk.inj (List.mem_singleton.mp h)
      exact ⟨hpresents, hsuccess⟩
    · cases h
  · cases h

theorem Trail.mem_replay (h : old ∈ tr.replay c) : ∃ e ∈ tr.rotations, e.1 = old := by
  obtain ⟨-, hmem⟩ := List.mem_filter.mp h
  exact List.mem_map.mp (List.contains_iff_mem.mp hmem)

/-! ## Families of replayed tokens -/

def Trail.Ended (pl : Platform) (tr : Trail) : Prop :=
  ∀ old ∈ tr.replayed, (∃ e ∈ tr.rotations, e.1 = old)
    ∧ ∀ raw, Relation.ReflTransGen (Rotated tr.rotations) old raw →
      ¬Live tr.state.db (hashToken pl.provider raw)

theorem mem_of_descends {rotations : List (Bytes × Bytes)} {raw : Bytes}
    (h : Relation.ReflTransGen (Rotated rotations) old raw) :
    raw = old ∨ ∃ e ∈ rotations, e.2 = raw := by
  cases h with
  | refl => exact .inl rfl
  | tail _ hlast => exact .inr ⟨_, hlast, rfl⟩

theorem Trail.contained_of_successors
    (hfresh : ∀ e ∈ tr.rotations, ¬Draws pl.provider c.env.rand (hashToken pl.provider e.1)
      ∧ ¬Draws pl.provider c.env.rand (hashToken pl.provider e.2))
    (hsucc : ∀ old ∈ tr.replay c, ∀ raw ∈ old :: tr.rotations.map Prod.snd,
      ¬Live tr.state.db (hashToken pl.provider raw)) : tr.Contained pl c := by
  refine ⟨hfresh, fun old hold raw hraw => hsucc old hold raw ?_⟩
  rcases mem_of_descends hraw with rfl | ⟨e, he, rfl⟩
  · exact mem_cons_self
  · exact mem_cons_of_mem _ (mem_map_of_mem he)

theorem descends_of_ended {raw : Bytes}
    (hended : ∀ raw, Relation.ReflTransGen (Rotated tr.rotations) old raw →
      ¬Live tr.state.db (hashToken pl.provider raw))
    (h : Relation.ReflTransGen (Rotated (tr.next pl c).rotations) old raw) :
    Relation.ReflTransGen (Rotated tr.rotations) old raw := by
  induction h with
  | refl => exact .refl
  | tail _ hlast ih =>
    rcases List.mem_append.mp hlast with hlast | hlast
    · exact ih.tail hlast
    · exact absurd (Call.mem_rotation hlast).live (hended _ ih)

theorem Trail.Ended.next (h : tr.Ended pl) (hc : tr.Contained pl c) : (tr.next pl c).Ended pl := by
  intro old hold
  have hbefore : (∃ e ∈ tr.rotations, e.1 = old)
      ∧ ∀ raw, Relation.ReflTransGen (Rotated tr.rotations) old raw →
        ¬Live tr.state.db (hashToken pl.provider raw) := by
    rcases List.mem_append.mp hold with hold | hold
    · exact h old hold
    · exact ⟨mem_replay hold, hc.family old hold⟩
  obtain ⟨⟨e, he, rfl⟩, hended⟩ := hbefore
  refine ⟨⟨e, mem_append_left _ he, rfl⟩, fun raw hraw hlive => ?_⟩
  have hraw := descends_of_ended hended hraw
  rcases Call.live hlive with hlive | hdraws
  · exact hended raw hraw hlive
  · rcases mem_of_descends hraw with rfl | ⟨e', he', rfl⟩
    · exact (hc.fresh e he).1 hdraws
    · exact (hc.fresh e' he').2 hdraws

end Trails

/-- After a replay no descendant is accepted, in every run whose replays find the whole family used
or deleted. -/
theorem replay_ends_family (pl : Platform) (st : State) (calls : List Call)
    (h : EveryStep (Trail.next pl) (Trail.Contained pl) (.start st) calls) :
    EveryStep (Trail.next pl) (Trail.DetectsTheft pl) (.start st) calls := by
  refine everyStep_of_everyStep (I := Trail.Ended pl) (fun tr c hended _ => ?_)
    (fun _ _ => Trail.Ended.next) (fun _ hmem => absurd hmem not_mem_nil) h
  intro raw haccepts old hold hdescends
  exact (hended old hold).2 raw hdescends.to_reflTransGen haccepts.live

namespace Sample

def granted : State := afterCall platform (restarted authorized) (call 3 (.token redeem))

def raw (n : UInt8) : Bytes := encodeHex (List.replicate 32 n)

def rotate (old n : UInt8) : Call :=
  call n (.token (post [("grant_type", "refresh_token"), ("refresh_token", raw old)]))

def revoke (n : UInt8) : Call :=
  call 9 (.revoke (post [("token", raw n), ("token_type_hint", "refresh_token")]))

end Sample

open Sample

theorem replay_ends_family_sample :
    EveryStep (Trail.next platform) (Trail.DetectsTheft platform)
        (.start granted) [rotate 3 4, revoke 4, rotate 3 5]
      ∧ ([rotate 3 4, revoke 4, rotate 3 5].foldl (Trail.next platform)
          (.start granted)).replayed = [raw 3] := by
  refine ⟨replay_ends_family _ _ _ ⟨?_, ?_, ?_, trivial⟩, ?_⟩
  · exact Trail.contained_of_successors (by decide +kernel) (by decide +kernel)
  · exact Trail.contained_of_successors (by decide +kernel) (by decide +kernel)
  · exact Trail.contained_of_successors (by decide +kernel) (by decide +kernel)
  · decide +kernel

theorem replayed_family_accepted :
    ¬EveryStep (Trail.next platform) (Trail.DetectsTheft platform)
        (.start granted) [rotate 3 4, rotate 3 5, rotate 4 6]
      ∧ ((rotate 3 5).answer platform
          (afterCall platform granted (rotate 3 4))).success = false := by
  refine ⟨?_, by decide +kernel⟩
  rintro ⟨-, -, hlast, -⟩
  refine hlast (raw 4) ?_ (raw 3) ?_ (.single ?_)
  · decide +kernel
  · decide +kernel
  · change (raw 3, raw 4) ∈ _
    decide +kernel

end TptIdentity.Oidc
