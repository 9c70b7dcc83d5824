import TptIdentity.ConsentPolicy

/-!
# Withdrawn grants

`RevokeGrant` stops at the first grant with its ID, and `AddGrant` does not look at IDs. A
revoked grant stays without effect exactly as long as the grants that are revoked are the only
ones with their ID, or the others are spent (`final_iff_careful`).
-/

namespace TptIdentity.Policy

open Go List Schema Or

def Spent (g : Grant) : Prop :=
  ∀ (schemas : Registry) (schemaID : Bytes) (s : Schema),
    getSchema schemas schemaID = .ok s → ∀ (subjectDID relyingDID : Bytes) (now : Int),
      g.allows s subjectDID relyingDID schemaID now = false

def Live (g : Grant) : Prop :=
  g.revokedAt = none
    ∧ (g.level = grantSchema ∨ g.level = grantCategory ∧ g.explicitlyConfirmed = true)

instance decidableLive (g : Grant) : Decidable (Live g) :=
  inferInstanceAs (Decidable (g.revokedAt = none
    ∧ (g.level = grantSchema ∨ g.level = grantCategory ∧ g.explicitlyConfirmed = true)))

theorem spent_iff {g : Grant} : Spent g ↔ ¬Live g := by
  have hexpires : ∀ expiresAt, g.expiresAt = some expiresAt → g.expiresAt.getD 0 ≤ expiresAt := by
    intro expiresAt hexp
    rw [hexp]
    exact le_rfl
  constructor
  · rintro h ⟨hrev, hkind⟩
    -- a schema with the scope of the grant as its ID and as its category
    let s : Schema := ⟨g.scopeID, 1, g.scopeID, false, []⟩
    have hs : getSchema (Map.empty.set g.scopeID s) g.scopeID = .ok s := by
      simp [getSchema, Map.get_set]
    have hno := h _ _ s hs g.subjectDID g.relyingDID (g.expiresAt.getD 0)
    have hyes : g.allows s g.subjectDID g.relyingDID g.scopeID (g.expiresAt.getD 0) = true := by
      refine allows_iff.mpr ⟨rfl, rfl, hrev, hexpires, ?_⟩
      rcases hkind with hschema | ⟨hcat, hconf⟩
      · exact inl ⟨hschema, rfl⟩
      · exact inr ⟨hcat, rfl, rfl, hconf⟩
    rw [hno] at hyes
    cases hyes
  · intro h schemas schemaID s _ subjectDID relyingDID now
    rw [← Bool.not_eq_true]
    intro hallows
    obtain ⟨-, -, hrev, -, hkind⟩ := allows_iff.mp hallows
    refine h ⟨hrev, ?_⟩
    rcases hkind with ⟨hschema, -⟩ | ⟨hcat, -, -, hconf⟩
    · exact inl hschema
    · exact inr ⟨hcat, hconf⟩

/-! ## Histories -/

/-- Whether a `RevokeGrant` of its ID has returned nil or "already revoked", for each grant. -/
structure History where
  policy : Policy
  ended : List Bool

variable {ended : List Bool} {h : History} (p : Policy) (g : Grant)

def History.start : History := ⟨p, p.grants.map fun _ => false⟩

structure Step where
  schemas : Registry
  categories : Categories
  op : Op

def ends (grantID : Bytes) (now : Int) : Bool :=
  match p.revokeGrant grantID now with
  | .ok _ => true
  | .err e => e = .new "policy: grant %q already revoked" [grantID]
  | .panics _ => false

def mark (grantID : Bytes) (grants : List Grant) (ended : List Bool) : List Bool :=
  zipWith (fun g b => b || decide (g.id = grantID)) grants ended

def next (h : History) (step : Step) : History where
  policy := afterOp step.schemas step.categories h.policy step.op
  ended :=
    match step.op with
    | .addGrant g =>
      if validateGrant step.schemas step.categories g = .ok () then h.ended ++ [false]
      else h.ended
    | .revokeGrant grantID now =>
      if ends h.policy grantID now then mark grantID h.policy.grants h.ended else h.ended

def Final (h : History) : Prop :=
  Forall₂ (fun g b => b = true → Spent g) h.policy.grants h.ended

def Careful (h : History) (step : Step) : Prop :=
  match step.op with
  | .addGrant _ => True
  | .revokeGrant grantID _ => ∀ g ∈ (h.policy.grants.filter fun g => g.id = grantID).tail, ¬Live g

/-! ## A revocation -/

section Revoke

variable {grantID : Bytes} {now : Int}

theorem getD_revokeFirst_cons (grants : List Grant) :
    (revokeFirst grantID now (g :: grants)).getD (g :: grants)
      = if g.id = grantID then
          (if g.revokedAt.isSome then g else { g with revokedAt := some now }) :: grants
        else g :: (revokeFirst grantID now grants).getD grants := by
  by_cases hid : g.id = grantID
  · simp only [revokeFirst, if_pos hid]
    split
    · rfl
    · rfl
  · simp only [revokeFirst, if_neg hid]
    cases revokeFirst grantID now grants with
    | ok grants => rfl
    | err e => rfl
    | panics reason => rfl

theorem not_live_stamped :
    ¬Live (if g.revokedAt.isSome then g else { g with revokedAt := some now }) := by
  rintro ⟨hrev, -⟩
  split at hrev
  · next hsome => simp [hrev] at hsome
  · cases hrev

variable (grantID now) in
theorem revokeFirst_cases (grants : List Grant) :
    (∃ g ∈ grants, g.id = grantID) ∧ ((revokeFirst grantID now grants).isOk = true
        ∨ revokeFirst grantID now grants
          = .err (.new "policy: grant %q already revoked" [grantID]))
      ∨ (∀ g ∈ grants, g.id ≠ grantID)
        ∧ revokeFirst grantID now grants = .err (.new "policy: grant %q not found" [grantID]) := by
  induction grants with
  | nil => exact inr ⟨fun g hg => absurd hg not_mem_nil, rfl⟩
  | cons g grants ih =>
    by_cases hid : g.id = grantID
    · refine inl ⟨⟨g, mem_cons_self, hid⟩, ?_⟩
      simp only [revokeFirst, if_pos hid]
      split
      · exact inr rfl
      · exact inl rfl
    · simp only [revokeFirst, if_neg hid]
      rcases ih with ⟨⟨g', hg', hid'⟩, hok | herr⟩ | ⟨hall, herr⟩
      · refine inl ⟨⟨g', mem_cons_of_mem _ hg', hid'⟩, inl ?_⟩
        cases hrest : revokeFirst grantID now grants with
        | ok rest => rfl
        | err e => rw [hrest] at hok; cases hok
        | panics reason => rw [hrest] at hok; cases hok
      · rw [herr]
        exact inl ⟨⟨g', mem_cons_of_mem _ hg', hid'⟩, inr rfl⟩
      · rw [herr]
        exact inr ⟨forall_mem_cons.mpr ⟨hid, hall⟩, rfl⟩

theorem ends_iff {p : Policy} : ends p grantID now = true ↔ ∃ g ∈ p.grants, g.id = grantID := by
  unfold ends revokeGrant
  rcases revokeFirst_cases grantID now p.grants
    with ⟨hex, hok | herr⟩ | ⟨hall, herr⟩
  · cases hrest : revokeFirst grantID now p.grants with
    | ok rest => exact ⟨fun _ => hex, fun _ => rfl⟩
    | err e => rw [hrest] at hok; cases hok
    | panics reason => rw [hrest] at hok; cases hok
  · rw [herr]
    exact ⟨fun _ => hex, fun _ => decide_eq_true rfl⟩
  · rw [herr]
    constructor
    · intro h
      exact absurd (of_decide_eq_true h) (by simp)
    · rintro ⟨g, hg, hid⟩
      exact absurd hid (hall g hg)

theorem grants_afterOp_revokeGrant (schemas : Registry) (categories : Categories) (p : Policy) :
    (afterOp schemas categories p (.revokeGrant grantID now)).grants
      = (revokeFirst grantID now p.grants).getD p.grants := by
  simp only [afterOp, revokeGrant]
  cases revokeFirst grantID now p.grants with
  | ok grants => rfl
  | err e => rfl
  | panics reason => rfl

theorem forall₂_mark {grants : List Grant}
    (h : Forall₂ (fun g b => b = true → ¬Live g) grants ended) :
    Forall₂ (fun g b => b = true → ¬Live g) grants (mark grantID grants ended)
      ↔ ∀ g ∈ grants, g.id = grantID → ¬Live g := by
  induction h with
  | nil => simp [mark]
  | @cons g b grants ended hhead _ ih =>
    show Forall₂ _ (g :: grants) ((b || decide (g.id = grantID)) :: mark grantID grants ended)
      ↔ _
    rw [forall₂_cons, ih, forall_mem_cons]
    refine and_congr_left fun _ => ?_
    constructor
    · intro h hid
      exact h (by simp [hid])
    · intro h hb
      rcases Bool.or_eq_true_iff.mp hb with hb | hid
      · exact hhead hb
      · exact h (of_decide_eq_true hid)

theorem forall₂_revokeFirst {grants : List Grant}
    (h : Forall₂ (fun g b => b = true → ¬Live g) grants ended) :
    Forall₂ (fun g b => b = true → ¬Live g) ((revokeFirst grantID now grants).getD grants)
        (mark grantID grants ended)
      ↔ ∀ g ∈ (grants.filter fun g => g.id = grantID).tail, ¬Live g := by
  induction h with
  | nil => simp [mark, revokeFirst, Res.getD]
  | @cons g b grants ended hhead hrest ih =>
    rw [getD_revokeFirst_cons]
    show Forall₂ _ _ ((b || decide (g.id = grantID)) :: mark grantID grants ended) ↔ _
    by_cases hid : g.id = grantID
    · rw [if_pos hid, forall₂_cons, filter_cons_of_pos (by simpa using hid),
        tail_cons, forall₂_mark hrest]
      simp only [mem_filter, decide_eq_true_eq, and_imp]
      exact and_iff_right fun _ => not_live_stamped g
    · rw [if_neg hid, forall₂_cons, filter_cons_of_neg (by simpa using hid), ih]
      refine and_iff_right ?_
      intro hb
      exact hhead (by simpa [hid] using hb)

end Revoke

/-! ## A history -/

theorem final_iff : Final h ↔ Forall₂ (fun g b => b = true → ¬Live g) h.policy.grants h.ended := by
  simp only [Final, spent_iff]

theorem final_start : Final (.start p) := by
  show Forall₂ _ p.grants (p.grants.map fun _ => false)
  rw [forall₂_map_right_iff, forall₂_same]
  intro g _ hb
  cases hb

theorem final_next_addGrant (hfinal : Final h) (schemas : Registry)
    (categories : Categories) (g : Grant) :
    Final (next h ⟨schemas, categories, .addGrant g⟩) := by
  simp only [Final, next, afterOp_addGrant]
  split
  · exact rel_append hfinal (.cons (fun hb => by cases hb) .nil)
  · exact hfinal

theorem final_next_revokeGrant (hfinal : Final h) (schemas : Registry)
    (categories : Categories) (grantID : Bytes) (now : Int) :
    Final (next h ⟨schemas, categories, .revokeGrant grantID now⟩)
      ↔ Careful h ⟨schemas, categories, .revokeGrant grantID now⟩ := by
  rw [final_iff] at hfinal ⊢
  simp only [next, grants_afterOp_revokeGrant]
  show _ ↔ ∀ g ∈ (h.policy.grants.filter fun g => g.id = grantID).tail, ¬Live g
  by_cases hends : ends h.policy grantID now = true
  · rw [if_pos hends]
    exact forall₂_revokeFirst hfinal
  · -- there is no grant with the ID
    rw [if_neg hends]
    have hnone : ∀ g ∈ h.policy.grants, g.id ≠ grantID := by
      intro g hg hid
      exact hends (ends_iff.mpr ⟨g, hg, hid⟩)
    have hfilter : h.policy.grants.filter (fun g => g.id = grantID) = [] :=
      filter_eq_nil_iff.mpr (by simpa using hnone)
    rcases revokeFirst_cases grantID now h.policy.grants
      with ⟨⟨g, hg, hid⟩, -⟩ | ⟨-, herr⟩
    · exact absurd hid (hnone g hg)
    · rw [herr, hfilter]
      exact ⟨fun _ g hg => absurd hg not_mem_nil, fun _ => hfinal⟩

/-- Revocation is final in a run exactly if no revoked ID is shared with another grant that still
counts. -/
theorem final_iff_careful (steps : List Step) :
    EveryState next Final (.start p) steps ↔ EveryStep next Careful (.start p) steps := by
  refine everyState_iff_everyStep (I := Final) (F := fun _ _ => True) (fun _ h => h) ?_ ?_
    (final_start p) (everyStep_of_forall fun _ _ => trivial)
  · rintro h ⟨schemas, categories, op⟩ hfinal - hcareful
    cases op with
    | addGrant g => exact final_next_addGrant hfinal schemas categories g
    | revokeGrant grantID now =>
      exact (final_next_revokeGrant hfinal schemas categories grantID now).mpr hcareful
  · rintro h ⟨schemas, categories, op⟩ hfinal - hnext
    cases op with
    | addGrant g => trivial
    | revokeGrant grantID now =>
      exact (final_next_revokeGrant hfinal schemas categories grantID now).mp hnext

namespace Sample

def duplicated : History :=
  [⟨schemas, categories, .addGrant (grant "g1" grantSchema mentalHealth.id)⟩,
    ⟨schemas, categories, .addGrant (grant "g1" grantSchema mentalHealth.id)⟩,
    ⟨schemas, categories, .revokeGrant "g1" 5⟩].foldl next (.start (newPolicy []))

end Sample

open Sample

theorem canAccess_duplicated :
    duplicated.ended = [true, true]
      ∧ duplicated.policy.canAccess schemas "did:key:a" "did:key:b" mentalHealth.id 6 = .ok ()
      ∧ ¬Final duplicated := by
  have hended : duplicated.ended = [true, true] := by decide +kernel
  refine ⟨hended, by decide +kernel, ?_⟩
  rw [final_iff, hended]
  intro h
  cases h with
  | cons _ h =>
    cases h with
    | cons h _ => exact h rfl ⟨rfl, inl rfl⟩

end TptIdentity.Policy
