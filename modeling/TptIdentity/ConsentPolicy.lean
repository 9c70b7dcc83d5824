import TptIdentity.GoProc
import TptIdentity.SchemaRegistry

/-!
# Package consent: the policy

A `Policy` is a list of grants behind a mutex, which makes each operation one step. Access is
given exactly when a grant that was accepted, and not revoked since, covers the schema
(`Policy.canAccess_iff_supports`).
-/

namespace TptIdentity

open Go List Schema Or

abbrev GrantLevel := Bytes

def grantSchema : GrantLevel := "schema"

def grantCategory : GrantLevel := "category"

structure Grant where
  id : Bytes
  subjectDID : Bytes
  relyingDID : Bytes
  level : GrantLevel
  scopeID : Bytes
  grantedAt : Int
  expiresAt : Option Int
  revokedAt : Option Int
  explicitlyConfirmed : Bool
deriving DecidableEq, Repr

structure Policy where
  grants : List Grant
deriving DecidableEq, Repr

def newPolicy (grants : List Grant) : Policy := ⟨grants⟩

def Grant.expired (g : Grant) (now : Int) : Bool :=
  g.expiresAt.any fun expiresAt => decide (expiresAt < now)

/-- The body of the loop of `CanAccess`: true where it returns nil. -/
def Grant.allows (g : Grant) (s : Schema) (subjectDID relyingDID schemaID : Bytes)
    (now : Int) : Bool :=
  if g.subjectDID ≠ subjectDID ∨ g.relyingDID ≠ relyingDID then false
  else if g.revokedAt.isSome then false
  else if g.expired now then false
  else if g.level = grantSchema then decide (g.scopeID = schemaID)
  else if g.level = grantCategory then
    if g.scopeID = s.categoryID then
      -- category grants never cover extra-sensitive schemas
      if s.extraSensitive then false else g.explicitlyConfirmed
    else false
  else false

namespace Policy

def canAccess (schemas : Registry) (p : Policy)
    (subjectDID relyingDID schemaID : Bytes) (now : Int) : Res Unit :=
  match getSchema schemas schemaID with
  | .ok s =>
    if p.grants.any fun g => g.allows s subjectDID relyingDID schemaID now then .ok ()
    else if s.extraSensitive then
      .err (.new "policy: %q is extra-sensitive and requires an individual explicit grant"
        [schemaID])
    else .err (.new "policy: %s has not granted %s access to %q"
      [subjectDID, relyingDID, schemaID])
  | _ => .err (.new "policy: unknown schema %q" [schemaID])

end Policy

def validateGrant (schemas : Registry) (categories : Categories) (g : Grant) : Res Unit :=
  if g.subjectDID = [] ∨ g.relyingDID = [] ∨ g.scopeID = [] then
    .err (.new "policy: grant missing required fields" [])
  else if g.level = grantSchema then do
    let s ← (getSchema schemas g.scopeID).wrapErr "policy: %w" []
    if s.extraSensitive = true ∧ g.explicitlyConfirmed = false then
      .err (.new "policy: schema %q is extra-sensitive; ExplicitlyConfirmed must be true"
        [g.scopeID])
    else .ok ()
  else if g.level = grantCategory then do
    let _ ← (getCategory categories g.scopeID).wrapErr "policy: %w" []
    if g.explicitlyConfirmed = false then
      .err (.new "policy: category grants require ExplicitlyConfirmed=true" [])
    else .ok ()
  else .err (.new "policy: unknown grant level %q" [g.level])

variable {now : Int} {schemaID : Bytes} {s : Schema} {g' : Grant}

namespace Policy

def addGrant (schemas : Registry) (categories : Categories) (p : Policy)
    (g : Grant) : Res Policy := do
  validateGrant schemas categories g
  .ok ⟨p.grants ++ [g]⟩

def revokeFirst (grantID : Bytes) (now : Int) : List Grant → Res (List Grant)
  | [] => .err (.new "policy: grant %q not found" [grantID])
  | g :: grants =>
    if g.id = grantID then
      if g.revokedAt.isSome then .err (.new "policy: grant %q already revoked" [grantID])
      else .ok ({ g with revokedAt := some now } :: grants)
    else do
      let grants ← revokeFirst grantID now grants
      .ok (g :: grants)

def revokeGrant (p : Policy) (grantID : Bytes) (now : Int) : Res Policy := do
  let grants ← revokeFirst grantID now p.grants
  .ok ⟨grants⟩

/-! ## Histories

One operation on a policy, with the clock reading it makes. An operation
that fails leaves the policy as it was. -/

inductive Op where
  | addGrant (g : Grant)
  | revokeGrant (grantID : Bytes) (now : Int)
deriving DecidableEq, Repr

variable {op : Op}

section History

variable (schemas : Registry) (categories : Categories)

def afterOp (p : Policy) : Op → Policy
  | .addGrant g => (p.addGrant schemas categories g).getD p
  | .revokeGrant grantID now => (p.revokeGrant grantID now).getD p

def run (p : Policy) (ops : List Op) : Policy := ops.foldl (afterOp schemas categories) p

def FreshID (p : Policy) : Op → Prop
  | .addGrant g => g.id ∉ p.grants.map Grant.id
  | .revokeGrant _ _ => True

instance decidableFreshID (p : Policy) : ∀ op : Op, Decidable (FreshID p op)
  | .addGrant g => inferInstanceAs (Decidable (g.id ∉ p.grants.map Grant.id))
  | .revokeGrant _ _ => inferInstanceAs (Decidable True)

def Withdraws (grantID : Bytes) (p : Policy) : Op → Prop
  | .addGrant _ => False
  | .revokeGrant grantID' now => grantID' = grantID ∧ (p.revokeGrant grantID' now).isOk = true

instance decidableWithdraws (grantID : Bytes) (p : Policy) :
    ∀ op : Op, Decidable (Withdraws grantID p op)
  | .addGrant _ => inferInstanceAs (Decidable False)
  | .revokeGrant grantID' now =>
    inferInstanceAs (Decidable (grantID' = grantID ∧ (p.revokeGrant grantID' now).isOk = true))

/-- `AddGrant` accepted the grant, not already revoked, and no later operation withdraws it. -/
structure Standing (p : Policy) (before : List Op) (g : Grant) (after : List Op) : Prop where
  accepted : validateGrant schemas categories g = .ok ()
  unrevoked : g.revokedAt = none
  kept : EveryStep (afterOp schemas categories) (fun p op => ¬Withdraws g.id p op)
    (run schemas categories p (before ++ [.addGrant g])) after

def InForce (p : Policy) (ops : List Op) (g : Grant) : Prop :=
  ∃ before after, ops = before ++ .addGrant g :: after
    ∧ Standing schemas categories p before g after

/-- A grant in force that has not expired and covers the schema, by itself or, if it is not
extra-sensitive, through its category. -/
structure Supports (ops : List Op) (subjectDID relyingDID schemaID : Bytes) (s : Schema)
    (now : Int) (g : Grant) : Prop where
  inForce : InForce schemas categories (newPolicy []) ops g
  subject : g.subjectDID = subjectDID
  relying : g.relyingDID = relyingDID
  unexpired : ∀ expiresAt, g.expiresAt = some expiresAt → now ≤ expiresAt
  covers : g.level = grantSchema ∧ g.scopeID = schemaID
    ∨ g.level = grantCategory ∧ g.scopeID = s.categoryID ∧ s.extraSensitive = false

end History

/-! ## What a check passed says -/

theorem canAccess_eq_ok {schemas : Registry} {p : Policy} {subjectDID relyingDID : Bytes}
    (hs : getSchema schemas schemaID = .ok s) :
    p.canAccess schemas subjectDID relyingDID schemaID now = .ok ()
      ↔ ∃ g ∈ p.grants, g.allows s subjectDID relyingDID schemaID now := by
  simp only [canAccess, hs, ← any_eq_true]
  constructor
  · intro h
    by_contra hany
    rw [if_neg hany] at h
    split at h <;> cases h
  · intro hany
    rw [if_pos hany]

variable {g : Grant}

theorem allows_iff {subjectDID relyingDID : Bytes} :
    g.allows s subjectDID relyingDID schemaID now
      ↔ g.subjectDID = subjectDID ∧ g.relyingDID = relyingDID ∧ g.revokedAt = none
        ∧ (∀ expiresAt, g.expiresAt = some expiresAt → now ≤ expiresAt)
        ∧ (g.level = grantSchema ∧ g.scopeID = schemaID
          ∨ g.level = grantCategory ∧ g.scopeID = s.categoryID ∧ s.extraSensitive = false
            ∧ g.explicitlyConfirmed) := by
  have hlevels : grantSchema ≠ grantCategory := by decide
  have hexpired : g.expired now = false
      ↔ ∀ expiresAt, g.expiresAt = some expiresAt → now ≤ expiresAt := by
    cases h : g.expiresAt with
    | none => simp [Grant.expired, h]
    | some expiresAt => simp [Grant.expired, h]
  rw [← hexpired]
  unfold Grant.allows
  by_cases hparties : g.subjectDID ≠ subjectDID ∨ g.relyingDID ≠ relyingDID
  · rw [if_pos hparties]
    constructor
    · intro h
      cases h
    · rintro ⟨hsub, hrel, -⟩
      exact absurd hparties (by simp [hsub, hrel])
  simp only [not_or, not_not] at hparties
  obtain ⟨hsub, hrel⟩ := hparties
  by_cases hrev : g.revokedAt = none
  · by_cases hexp : g.expired now
    · simp [hrev, hexp]
    · by_cases hschema : g.level = grantSchema
      · simp [hsub, hrel, hrev, hexp, hschema, hlevels]
      · by_cases hcat : g.level = grantCategory
        · simp only [hsub, hrel, hrev, hexp, hcat, hlevels.symm, Option.isSome_none,
            Bool.false_eq_true, if_false, if_true, true_and, false_and, false_or]
          by_cases hscope : g.scopeID = s.categoryID
          · cases s.extraSensitive <;> simp [hscope]
          · simp [hscope]
        · simp [hschema, hcat, hrev, hexp]
  · simp [hrev, Option.isSome_iff_ne_none]

theorem validateGrant_eq_ok {schemas : Registry} {categories : Categories}
    (h : validateGrant schemas categories g = .ok ()) :
    g.level = grantSchema ∧ (∃ s, getSchema schemas g.scopeID = .ok s
        ∧ (s.extraSensitive → g.explicitlyConfirmed))
      ∨ g.level = grantCategory ∧ g.explicitlyConfirmed := by
  obtain ⟨-, h⟩ := Res.ite_err_eq_ok.mp h
  by_cases hschema : g.level = grantSchema
  · rw [if_pos hschema] at h
    obtain ⟨s, hs, h⟩ := Res.bind_eq_ok.mp h
    obtain ⟨hconf, -⟩ := Res.ite_err_eq_ok.mp h
    refine inl ⟨hschema, s, Res.wrapErr_eq_ok.mp hs, ?_⟩
    intro hsens
    by_contra hno
    exact hconf ⟨hsens, by simpa using hno⟩
  · rw [if_neg hschema] at h
    by_cases hcat : g.level = grantCategory
    · rw [if_pos hcat] at h
      obtain ⟨-, -, h⟩ := Res.bind_eq_ok.mp h
      obtain ⟨hconf, -⟩ := Res.ite_err_eq_ok.mp h
      exact inr ⟨hcat, by simpa using hconf⟩
    · rw [if_neg hcat] at h
      cases h

/-! ## One operation -/

theorem revokeFirst_eq_ok {grantID : Bytes} {grants grants' : List Grant}
    (h : revokeFirst grantID now grants = .ok grants') :
    ∃ before g after, grants = before ++ g :: after ∧ g.id = grantID ∧ g.revokedAt = none
      ∧ grants' = before ++ { g with revokedAt := some now } :: after := by
  induction grants generalizing grants' with
  | nil => cases h
  | cons g grants ih =>
    by_cases hid : g.id = grantID
    · simp only [revokeFirst, if_pos hid] at h
      by_cases hrev : g.revokedAt.isSome
      · rw [if_pos hrev] at h
        cases h
      · rw [if_neg hrev] at h
        cases h
        exact ⟨[], g, grants, rfl, hid, by simpa using hrev, rfl⟩
    · simp only [revokeFirst, if_neg hid] at h
      obtain ⟨rest, hrest, h⟩ := Res.bind_eq_ok.mp h
      cases h
      obtain ⟨before, g', after, rfl, hid', hrev, rfl⟩ := ih hrest
      exact ⟨g :: before, g', after, rfl, hid', hrev, rfl⟩

def DistinctIDs (p : Policy) : Prop := (p.grants.map Grant.id).Nodup

section Steps

variable {schemas : Registry} {categories : Categories} {p : Policy}

theorem afterOp_addGrant (p : Policy) (g : Grant) :
    afterOp schemas categories p (.addGrant g)
      = if validateGrant schemas categories g = .ok () then ⟨p.grants ++ [g]⟩ else p := by
  simp only [afterOp, addGrant]
  cases h : validateGrant schemas categories g with
  | ok a => rfl
  | err e => rfl
  | panics r => rfl

theorem afterOp_revokeGrant (p : Policy) (grantID : Bytes) (now : Int) :
    (p.revokeGrant grantID now).isOk = false
        ∧ afterOp schemas categories p (.revokeGrant grantID now) = p
      ∨ (p.revokeGrant grantID now).isOk ∧ ∃ before g after,
          p.grants = before ++ g :: after ∧ g.id = grantID ∧ g.revokedAt = none
          ∧ afterOp schemas categories p (.revokeGrant grantID now)
            = ⟨before ++ { g with revokedAt := some now } :: after⟩ := by
  simp only [afterOp, revokeGrant]
  cases h : revokeFirst grantID now p.grants with
  | ok grants =>
    obtain ⟨before, g, after, hgrants, hid, hrev, rfl⟩ := revokeFirst_eq_ok h
    exact inr ⟨rfl, before, g, after, hgrants, hid, hrev, rfl⟩
  | err e => exact inl ⟨rfl, rfl⟩
  | panics r => exact inl ⟨rfl, rfl⟩

theorem distinctIDs_afterOp (hp : p.DistinctIDs) (hfresh : FreshID p op) :
    (afterOp schemas categories p op).DistinctIDs := by
  cases op with
  | addGrant g =>
    rw [afterOp_addGrant]
    split
    · show ((p.grants ++ [g]).map Grant.id).Nodup
      rw [map_append]
      refine nodup_append'.mpr ⟨hp, nodup_singleton _, ?_⟩
      intro id hid hg
      exact hfresh (List.mem_singleton.mp hg ▸ hid)
    · exact hp
  | revokeGrant grantID now =>
    rcases afterOp_revokeGrant p grantID now
      with ⟨-, heq⟩ | ⟨-, before, g, after, hgrants, -, -, heq⟩
    · rw [heq]
      exact hp
    · rw [heq]
      simpa [DistinctIDs, hgrants] using hp

theorem mem_afterOp_addGrant :
    g ∈ (afterOp schemas categories p (.addGrant g')).grants
      ↔ g ∈ p.grants ∨ g' = g ∧ validateGrant schemas categories g' = .ok () := by
  rw [afterOp_addGrant]
  by_cases hvalid : validateGrant schemas categories g' = .ok ()
  · rw [if_pos hvalid, mem_append, mem_singleton]
    simp [hvalid, eq_comm]
  · rw [if_neg hvalid]
    simp [hvalid]

theorem mem_stamped {before after : List Grant}
    (hids : ((before ++ g' :: after).map Grant.id).Nodup) (hrev : g.revokedAt = none) :
    g ∈ before ++ { g' with revokedAt := some now } :: after
      ↔ g ∈ before ++ g' :: after ∧ g'.id ≠ g.id := by
  rw [map_append, map_cons, nodup_middle, ← map_append] at hids
  have hother : g ∈ before ++ after → g'.id ≠ g.id := by
    intro hg heq
    exact (List.nodup_cons.mp hids).1 (heq ▸ mem_map_of_mem hg)
  have hstamped : g ≠ { g' with revokedAt := some now } := by
    intro hg
    rw [hg] at hrev
    cases hrev
  simp only [mem_append, mem_cons] at hother ⊢
  constructor
  · rintro (hg | hg | hg)
    · exact ⟨inl hg, hother (inl hg)⟩
    · exact absurd hg hstamped
    · exact ⟨inr (inr hg), hother (inr hg)⟩
  · rintro ⟨hg | rfl | hg, hne⟩
    · exact inl hg
    · exact absurd rfl hne
    · exact inr (inr hg)

theorem unrevoked_afterOp (hp : p.DistinctIDs) (hrev : g.revokedAt = none) :
    g ∈ (afterOp schemas categories p op).grants
      ↔ g ∈ p.grants ∧ ¬Withdraws g.id p op
        ∨ op = .addGrant g ∧ validateGrant schemas categories g = .ok () := by
  cases op with
  | addGrant g' =>
    rw [mem_afterOp_addGrant]
    refine or_congr (by simp [Withdraws]) ?_
    constructor
    · rintro ⟨rfl, hvalid⟩
      exact ⟨rfl, hvalid⟩
    · rintro ⟨hop, hvalid⟩
      cases hop
      exact ⟨rfl, hvalid⟩
  | revokeGrant grantID now =>
    rcases afterOp_revokeGrant p grantID now
      with ⟨hfail, heq⟩ | ⟨hok, before, g', after, hgrants, rfl, -, heq⟩
    · rw [heq]
      simp [Withdraws, hfail]
    · have hids : ((before ++ g' :: after).map Grant.id).Nodup := hgrants ▸ hp
      rw [heq, mem_stamped hids hrev, ← hgrants]
      simp [Withdraws, hok]

/-! ## A history -/

variable {ops : List Op}

theorem inForce_cons :
    InForce schemas categories p (op :: ops) g
      ↔ op = .addGrant g ∧ Standing schemas categories p [] g ops
        ∨ InForce schemas categories (afterOp schemas categories p op) ops g := by
  constructor
  · rintro ⟨before, after, hops, hstand⟩
    cases before with
    | nil =>
      cases hops
      exact inl ⟨rfl, hstand⟩
    | cons op' before =>
      cases hops
      exact inr ⟨before, after, rfl, hstand.accepted, hstand.unrevoked, hstand.kept⟩
  · rintro (⟨rfl, hstand⟩ | ⟨before, after, rfl, hstand⟩)
    · exact ⟨[], ops, rfl, hstand⟩
    · exact ⟨op :: before, after, rfl, hstand.accepted, hstand.unrevoked, hstand.kept⟩

theorem unrevoked_run (hrev : g.revokedAt = none) (hp : p.DistinctIDs)
    (hfresh : EveryStep (afterOp schemas categories) FreshID p ops) :
    g ∈ (run schemas categories p ops).grants
      ↔ g ∈ p.grants ∧ EveryStep (afterOp schemas categories)
            (fun p op => ¬Withdraws g.id p op) p ops
        ∨ InForce schemas categories p ops g := by
  -- the first operation either leaves `g` standing, adds it, or is past before `g` comes in
  induction ops generalizing p with
  | nil =>
    constructor
    · intro hg
      exact inl ⟨hg, trivial⟩
    · rintro (⟨hg, -⟩ | ⟨before, after, hops, -⟩)
      · exact hg
      · exact absurd hops (by simp)
  | cons op ops ih =>
    obtain ⟨hfirst, hrest⟩ := hfresh
    have hrun := ih (distinctIDs_afterOp hp hfirst) hrest
    show g ∈ (run schemas categories (afterOp schemas categories p op) ops).grants ↔ _
    rw [hrun, unrevoked_afterOp hp hrev, inForce_cons]
    constructor
    · rintro (⟨⟨hg, hkept⟩ | ⟨rfl, hvalid⟩, hsteps⟩ | hforce)
      · exact inl ⟨hg, hkept, hsteps⟩
      · exact inr (inl ⟨rfl, hvalid, hrev, hsteps⟩)
      · exact inr (inr hforce)
    · rintro (⟨hg, hkept, hsteps⟩ | ⟨rfl, hstand⟩ | hforce)
      · exact inl ⟨inl ⟨hg, hkept⟩, hsteps⟩
      · exact inl ⟨inr ⟨rfl, hstand.accepted⟩, hstand.kept⟩
      · exact inr hforce

theorem unrevoked_iff_inForce (hrev : g.revokedAt = none)
    (hfresh : EveryStep (afterOp schemas categories) FreshID (newPolicy []) ops) :
    g ∈ (run schemas categories (newPolicy []) ops).grants
      ↔ InForce schemas categories (newPolicy []) ops g := by
  have hempty : (newPolicy []).DistinctIDs := nodup_nil
  rw [unrevoked_run hrev hempty hfresh]
  constructor
  · rintro (⟨hg, -⟩ | hforce)
    · cases hg
    · exact hforce
  · exact inr

theorem InForce.standing (h : InForce schemas categories p ops g) :
    validateGrant schemas categories g = .ok () ∧ g.revokedAt = none := by
  obtain ⟨_, _, _, hstand⟩ := h
  exact ⟨hstand.accepted, hstand.unrevoked⟩

end Steps

/-- A grant that supports access to an extra-sensitive schema names the schema itself and was
confirmed. -/
theorem canAccess_iff_supports (schemas : Registry) (categories : Categories) (ops : List Op)
    (hfresh : EveryStep (afterOp schemas categories) FreshID (newPolicy []) ops)
    (subjectDID relyingDID schemaID : Bytes) (s : Schema)
    (hs : getSchema schemas schemaID = .ok s) (now : Int) :
    ((run schemas categories (newPolicy []) ops).canAccess schemas subjectDID relyingDID
          schemaID now = .ok ()
      ↔ ∃ g, Supports schemas categories ops subjectDID relyingDID schemaID s now g)
    ∧ (s.extraSensitive = true → ∀ g,
        Supports schemas categories ops subjectDID relyingDID schemaID s now g →
        g.level = grantSchema ∧ g.explicitlyConfirmed = true) := by
  constructor
  · rw [canAccess_eq_ok hs]
    constructor
    · rintro ⟨g, hg, hallows⟩
      obtain ⟨hsub, hrel, hrev, hexp, hcovers⟩ := allows_iff.mp hallows
      refine ⟨g, (unrevoked_iff_inForce hrev hfresh).mp hg, hsub, hrel, hexp, ?_⟩
      rcases hcovers with hschema | ⟨hcat, hscope, hsens, -⟩
      · exact inl hschema
      · exact inr ⟨hcat, hscope, hsens⟩
    · rintro ⟨g, hsup⟩
      obtain ⟨hvalid, hrev⟩ := hsup.inForce.standing
      refine ⟨g, (unrevoked_iff_inForce hrev hfresh).mpr hsup.inForce, allows_iff.mpr
        ⟨hsup.subject, hsup.relying, hrev, hsup.unexpired, ?_⟩⟩
      rcases hsup.covers with hschema | ⟨hcat, hscope, hsens⟩
      · exact inl hschema
      · rcases validateGrant_eq_ok hvalid with ⟨hlevel, -⟩ | ⟨-, hconf⟩
        · exact absurd (hlevel.symm.trans hcat) (by decide)
        · exact inr ⟨hcat, hscope, hsens, hconf⟩
  · intro hsens g hsup
    obtain ⟨hvalid, -⟩ := hsup.inForce.standing
    rcases hsup.covers with ⟨hschema, hscope⟩ | ⟨-, -, hnot⟩
    · rcases validateGrant_eq_ok hvalid with ⟨-, s', hs', hconf⟩ | ⟨hcat, -⟩
      · -- the schema `validateGrant` looked up is the one access is asked to
        rw [hscope, hs] at hs'
        cases hs'
        exact ⟨hschema, hconf hsens⟩
      · exact absurd (hschema.symm.trans hcat) (by decide)
    · rw [hsens] at hnot
      cases hnot

namespace Sample

def gpRecords : Schema := ⟨"healthcare.gp-records", 1, "healthcare", false, []⟩

def mentalHealth : Schema := ⟨"healthcare.mental-health", 1, "healthcare", true, []⟩

def schemas : Registry :=
  (Map.empty.set gpRecords.id gpRecords).set mentalHealth.id mentalHealth

def categories : Categories := Map.empty.set "healthcare" ⟨"healthcare"⟩

def grant (id : Bytes) (level : GrantLevel) (scopeID : Bytes) : Grant where
  id := id
  subjectDID := "did:key:a"
  relyingDID := "did:key:b"
  level := level
  scopeID := scopeID
  grantedAt := 0
  expiresAt := some 100
  revokedAt := none
  explicitlyConfirmed := true

def ops : List Op :=
  [.addGrant (grant "g1" grantCategory "healthcare"),
    .addGrant (grant "g2" grantSchema mentalHealth.id), .revokeGrant "g1" 5]

theorem ops_fresh : EveryStep (afterOp schemas categories) FreshID (newPolicy []) ops := by
  decide

theorem getSchema_mentalHealth : getSchema schemas mentalHealth.id = .ok mentalHealth := by
  decide

end Sample

open Sample

theorem canAccess_mentalHealth :
    (∃ g, Supports schemas categories ops "did:key:a"
      "did:key:b" mentalHealth.id mentalHealth 100 g)
    ∧ ¬∃ g, Supports schemas categories ops "did:key:a"
      "did:key:b" mentalHealth.id mentalHealth 101 g := by
  have hiff := fun now => (canAccess_iff_supports schemas categories ops
    ops_fresh "did:key:a" "did:key:b" mentalHealth.id
    mentalHealth getSchema_mentalHealth now).1
  rw [← hiff, ← hiff]
  decide

/-! ## The two names of a schema -/

structure Usable (subjectDID relyingDID : Bytes) (now : Int) (g : Grant) : Prop where
  subject : g.subjectDID = subjectDID
  relying : g.relyingDID = relyingDID
  unrevoked : g.revokedAt = none
  unexpired : ∀ expiresAt, g.expiresAt = some expiresAt → now ≤ expiresAt

def GrantedOn (p : Policy) (subjectDID relyingDID : Bytes) (now : Int) (schemaID : Bytes) : Prop :=
  ∃ g ∈ p.grants, Usable subjectDID relyingDID now g ∧ g.level = grantSchema ∧ g.scopeID = schemaID

def ViaCategory (p : Policy) (subjectDID relyingDID : Bytes) (now : Int) (s : Schema) : Prop :=
  ∃ g ∈ p.grants, Usable subjectDID relyingDID now g ∧ g.level = grantCategory
    ∧ g.scopeID = s.categoryID ∧ s.extraSensitive = false ∧ g.explicitlyConfirmed = true

theorem isOk_canAccess (p : Policy) (subjectDID relyingDID : Bytes) (now : Int)
    {schemas : Registry} (hs : getSchema schemas schemaID = .ok s) :
    (p.canAccess schemas subjectDID relyingDID schemaID now).isOk
      ↔ p.GrantedOn subjectDID relyingDID now schemaID
        ∨ p.ViaCategory subjectDID relyingDID now s := by
  rw [Res.isOk_unit, canAccess_eq_ok hs, GrantedOn, ViaCategory, ← exists_or]
  refine exists_congr fun g => ?_
  rw [← and_or_left, allows_iff, ← and_or_left]
  refine and_congr_right fun _ => ?_
  constructor
  · rintro ⟨hsub, hrel, hrev, hexp, hcovers⟩
    exact ⟨⟨hsub, hrel, hrev, hexp⟩, hcovers⟩
  · rintro ⟨husable, hcovers⟩
    exact ⟨husable.subject, husable.relying, husable.unrevoked, husable.unexpired, hcovers⟩

theorem scopeID_ne_nil {schemas : Registry} {categories : Categories}
    {ops : List Op} : ∀ g ∈ (run schemas categories (newPolicy []) ops).grants, g.scopeID ≠ [] := by
  induction ops using List.reverseRecOn with
  | nil => simp [run, newPolicy]
  | append_singleton ops op ih =>
    intro g hg
    rw [run, foldl_concat] at hg
    cases op with
    | addGrant g' =>
      rcases mem_afterOp_addGrant.mp hg with hg | ⟨rfl, hvalid⟩
      · exact ih g hg
      · obtain ⟨hmissing, -⟩ := Res.ite_err_eq_ok.mp hvalid
        exact fun hnil => hmissing (inr (inr hnil))
    | revokeGrant grantID now =>
      rcases afterOp_revokeGrant _ grantID now
        with ⟨-, heq⟩ | ⟨-, before, g', after, hgrants, -, -, heq⟩
      · rw [heq] at hg
        exact ih g hg
      · rw [heq] at hg
        have hscopes : g.scopeID ∈ (before ++ g' :: after).map Grant.scopeID := by
          simpa using mem_map_of_mem (f := Grant.scopeID) hg
        rw [← hgrants] at hscopes
        obtain ⟨g₀, hg₀, hscope⟩ := List.mem_map.mp hscopes
        exact hscope ▸ ih g₀ hg₀

/-- The two names of a schema give the same decision exactly if access comes from the category, or
the grants on the one are matched by grants on the other. The empty ID has no versioned one. -/
theorem canAccess_spelling_iff (l : List Schema) (hversion : ∀ s ∈ l, s.version < 2 ^ 63)
    (hclash : ∀ s, (registerAll l).get s.id = some s → (registerAll l).get s.versionedID = none)
    (categories : Categories) (ops : List Op) (subjectDID relyingDID : Bytes) (now : Int)
    (s : Schema) (hs : (registerAll l).get s.id = some s) (p : Policy)
    (hp : p = run (registerAll l) categories (newPolicy []) ops) :
    (p.canAccess (registerAll l) subjectDID relyingDID s.id now).isOk
        = (p.canAccess (registerAll l) subjectDID relyingDID s.versionedID now).isOk
      ↔ (s.id = [] ∧ ¬p.ViaCategory subjectDID relyingDID now s
        ∨ s.id ≠ [] ∧ (p.ViaCategory subjectDID relyingDID now s
          ∨ (p.GrantedOn subjectDID relyingDID now s.id
            ↔ p.GrantedOn subjectDID relyingDID now s.versionedID))) := by
  obtain ⟨-, hmem⟩ := get_registerAll hs
  have hbase := isOk_canAccess p subjectDID relyingDID now (getSchema_registerAll.mpr ⟨hs, inl rfl⟩)
  by_cases hid : s.id = []
  · have hunknown : (p.canAccess (registerAll l) subjectDID relyingDID s.versionedID
        now).isOk = false := by
      obtain ⟨e, he⟩ := getSchema_versionedID_nil (hversion s hmem) hid (hclash s hs)
      rw [canAccess, he]
      rfl
    have hnone : ¬p.GrantedOn subjectDID relyingDID now s.id := by
      rintro ⟨g, hg, -, -, hscope⟩
      exact scopeID_ne_nil g (hp ▸ hg) (hscope.trans hid)
    rw [hunknown, ← Bool.not_eq_true, hbase]
    tauto
  · have hversioned := isOk_canAccess p subjectDID relyingDID now
      ((getSchema_versionedID (hversion s hmem) hs).mpr ⟨hclash s hs, hid⟩)
    rw [Bool.eq_iff_iff, hbase, hversioned]
    tauto

namespace Sample

def decisions (g : Grant) (s : Schema) : Bool × Bool :=
  let p := run (registerAll [gpRecords, mentalHealth]) categories (newPolicy [])
    [.addGrant g]
  let ask id := (p.canAccess (registerAll [gpRecords, mentalHealth]) "did:key:a"
    "did:key:b" id 5).isOk
  (ask s.id, ask s.versionedID)

def onCategory : Grant := grant "g1" grantCategory "healthcare"

theorem versionedID_free (s : Schema)
    (hs : (registerAll [gpRecords, mentalHealth]).get s.id = some s) :
    (registerAll [gpRecords, mentalHealth]).get s.versionedID = none := by
  obtain ⟨-, hmem⟩ := get_registerAll hs
  rcases List.mem_cons.mp hmem with rfl | hmem
  · decide
  · rw [List.mem_singleton.mp hmem]
    decide

end Sample

theorem canAccess_spelling_category :
    (decisions onCategory gpRecords).1
      = (decisions onCategory gpRecords).2 := by
  refine (canAccess_spelling_iff [gpRecords, mentalHealth] (by decide)
    versionedID_free categories [.addGrant onCategory] "did:key:a"
    "did:key:b" 5 gpRecords (by decide) _ rfl).mpr (inr ⟨by decide, inl ?_⟩)
  refine ⟨onCategory, by decide, ⟨rfl, rfl, rfl, ?_⟩, rfl, rfl, rfl, rfl⟩
  intro expiresAt hexp
  obtain rfl := Option.some.inj hexp
  decide

theorem canAccess_spelling_differs :
    decisions (grant "g2" grantSchema mentalHealth.id) mentalHealth = (true, false)
      ∧ decisions (grant "g2" grantSchema mentalHealth.versionedID)
        mentalHealth = (false, true) := by
  decide

end Policy

end TptIdentity
