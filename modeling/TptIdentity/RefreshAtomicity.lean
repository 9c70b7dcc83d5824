import TptIdentity.TokenSingleUse

/-!
# Refreshing is not all or nothing

An error of the write that marks the token as used is dropped, and after it the handler can
still fail. `refresh_atomic_iff` says for which patterns of failing calls the outcome is all or
nothing.
-/

namespace TptIdentity.Oidc

open Go Store Proc

/-! ## Outcomes -/

def Redeemable (db : DB) (hash : Bytes) (now : Int) : Prop :=
  ∃ rt, db.refreshTokens.find hash = some rt ∧ rt.usedAt = none ∧ now ≤ rt.expiresAt

def Answer.refreshToken (a : Answer) : Option Bytes :=
  match a.response with
  | .json 200 (.obj members) =>
    members.findSome? fun (name, value) =>
      match value with
      | .str token => if name = "refresh_token" then some token else none
      | _ => none
  | _ => none

variable {hash : Bytes} {t : RefreshToken} (p : Provider)

/-- A success that uses up the old token and hands out a good one, or an error that leaves the old
one redeemable. -/
def AllOrNothing (env : Env) (old : Bytes) (a : Answer) (db : DB) : Prop :=
  (a.success = true ∧ (∀ now, ¬Redeemable db old now)
    ∧ ∃ raw, a.refreshToken = some raw ∧ Redeemable db (hashToken p raw) (env.clock 4))
  ∨ (a.success = false ∧ Redeemable db old (env.clock 0))

/-! ## Conditions on the faults -/

def Admitted (r : Request) (form : Map Bytes) (rt : RefreshToken) (db : DB)
    (faults : Faults) : Prop :=
  faults 0 = none
    ∧ ((validateClientAuth p.sha256 r form rt.clientID).run (fun n => faults (n + 1)) db).1 = .ok ()

def Mints (env : Env) (rt : RefreshToken) : Prop :=
  (∃ token, issueAccessToken p .refresh (env.clock 2) rt.subjectDID rt.clientID accessTokenTTL
      = .ok token)
    ∧ ∃ drawn, generateRefreshToken p env.rand = .ok drawn

/-- The token is marked exactly when a pair is made and stored, and the drawn one is not the old
one, nor one that has expired. -/
structure Undivided (p : Provider) (env : Env) (rt : RefreshToken) (db : DB)
    (faults : Faults) : Prop where
  together : faults 2 = none ↔ Mints p env rt ∧ faults 3 = none
  drawn : faults 2 = none → ∀ hash, Draws p env.rand hash →
    hash ≠ rt.hash ∧ ∀ row, db.refreshTokens.find hash = some row → env.clock 4 ≤ row.expiresAt

/-! ## The two halves -/

section Rotation

variable {p : Provider} {env : Env} {rt : RefreshToken} {db : DB} {faults : Faults}

theorem refreshToken_tokenResponse (access raw scope : Bytes) (ttl : Int)
    (signed : List SignedToken) :
    Answer.refreshToken ⟨tokenResponse access [] raw scope ttl, signed⟩ = some raw := by
  simp [Answer.refreshToken, tokenResponse, omitEmpty,
    (by decide : str "access_token" ≠ str "refresh_token")]

theorem run_issueRefreshedTokens_fails (db : DB) (h : ¬(Mints p env rt ∧ faults 0 = none)) :
    ((issueRefreshedTokens p env rt).run faults db).1.success = false
      ∧ ((issueRefreshedTokens p env rt).run faults db).2 = db := by
  unfold issueRefreshedTokens
  split
  · next accessToken haccess =>
    split
    · next raw hash hdrawn =>
      cases hfault : faults 0 with
      | none => exact absurd ⟨⟨⟨_, haccess⟩, _, hdrawn⟩, hfault⟩ h
      | some e =>
        simp only [saveRefreshToken, exec, run_query_bind, hfault]
        exact ⟨rfl, rfl⟩
    · exact ⟨rfl, rfl⟩
  · exact ⟨rfl, rfl⟩

theorem run_issueRefreshedTokens_ok (db : DB) (h : Mints p env rt) (hfault : faults 0 = none) :
    ∃ raw, Draws p env.rand (hashToken p raw)
      ∧ ((issueRefreshedTokens p env rt).run faults db).1.success
      ∧ ((issueRefreshedTokens p env rt).run faults db).1.refreshToken = some raw
      ∧ ((issueRefreshedTokens p env rt).run faults db).2
        = db.putRefreshToken (refreshed env rt (hashToken p raw)) := by
  obtain ⟨⟨accessToken, haccess⟩, ⟨raw, hash⟩, hdrawn⟩ := h
  have hhash : hash = hashToken p raw := by
    obtain ⟨raw', -, heq⟩ := Res.bind_eq_ok.mp hdrawn
    cases heq
    rfl
  subst hhash
  refine ⟨raw, ⟨raw, hdrawn⟩, ?_⟩
  simp only [issueRefreshedTokens, haccess, hdrawn, saveRefreshToken, exec, run_query_bind, hfault]
  exact ⟨rfl, refreshToken_tokenResponse .., rfl⟩

theorem run_rotateRefreshToken :
    (rotateRefreshToken p env rt).run faults db
      = (issueRefreshedTokens p env rt).run (fun n => faults (n + 1))
          (if faults 0 = none then db.putRefreshToken { rt with usedAt := some (env.clock 1) }
            else db) := by
  simp only [rotateRefreshToken, saveRefreshToken, exec, run_query_bind]
  cases faults 0 with
  | none => rfl
  | some e => rfl

/-! ## Redeemable tokens -/

theorem not_redeemable_of_not_live (h : ¬Live db hash) (now : Int) : ¬Redeemable db hash now := by
  rintro ⟨row, hrow, hunused, -⟩
  exact h ⟨row, hrow, hunused⟩

theorem redeemable_putRefreshToken_of_ne (hne : hash ≠ t.hash) (now : Int) :
    Redeemable (db.putRefreshToken t) hash now ↔ Redeemable db hash now := by
  unfold Redeemable
  rw [DB.find_putRefreshToken, if_neg hne]

theorem redeemable_putRefreshToken (db : DB) (ht : t.usedAt = none) (now : Int) :
    Redeemable (db.putRefreshToken t) t.hash now
      ↔ now ≤ ((db.refreshTokens.find t.hash).elim t id).expiresAt := by
  unfold Redeemable
  rw [DB.find_putRefreshToken, if_pos rfl]
  cases db.refreshTokens.find t.hash with
  | none =>
    constructor
    · rintro ⟨row, hrow, -, hnow⟩
      obtain rfl := Option.some.inj hrow
      exact hnow
    · intro hnow
      exact ⟨t, rfl, ht, hnow⟩
  | some old =>
    constructor
    · rintro ⟨row, hrow, -, hnow⟩
      obtain rfl := Option.some.inj hrow
      exact hnow
    · intro hnow
      exact ⟨old.merge t, rfl, ht, hnow⟩

theorem Draws.unique {hash' : Bytes} (h : Draws p env.rand hash) (h' : Draws p env.rand hash') :
    hash = hash' := by
  obtain ⟨raw, h⟩ := h
  obtain ⟨raw', h'⟩ := h'
  rw [h] at h'
  cases h'
  rfl

theorem exists_redeemable_refreshed (env : Env) (db : DB) (hash : Bytes)
    (h : hash ≠ rt.hash → ∃ now, Redeemable db rt.hash now) :
    ∃ now, Redeemable (db.putRefreshToken (refreshed env rt hash)) rt.hash now := by
  by_cases hsame : hash = rt.hash
  · subst hsame
    exact ⟨_, (redeemable_putRefreshToken db (t := refreshed env rt rt.hash) rfl _).mpr le_rfl⟩
  · obtain ⟨now, hnow⟩ := h hsame
    have hne : rt.hash ≠ (refreshed env rt hash).hash := fun heq => hsame heq.symm
    exact ⟨now, (redeemable_putRefreshToken_of_ne hne now).mpr hnow⟩

theorem allOrNothing_marked {usedAt : Int} {marked : DB}
    (hmarked : marked = db.putRefreshToken { rt with usedAt := some usedAt }) :
    AllOrNothing p env rt.hash ((issueRefreshedTokens p env rt).run faults marked).1
        ((issueRefreshedTokens p env rt).run faults marked).2
      ↔ (Mints p env rt ∧ faults 0 = none)
        ∧ ∀ hash, Draws p env.rand hash → hash ≠ rt.hash
          ∧ ∀ row, db.refreshTokens.find hash = some row → env.clock 4 ≤ row.expiresAt := by
  have hspent : ¬Live marked rt.hash := by
    rw [hmarked]
    exact not_live_putRefreshToken (t := { rt with usedAt := some usedAt }) rfl
  by_cases h : Mints p env rt ∧ faults 0 = none
  · obtain ⟨raw, hdraws, hsuccess, htoken, hdb⟩ :=
      run_issueRefreshedTokens_ok marked h.1 h.2
    have hothers : hashToken p raw ≠ rt.hash →
        marked.refreshTokens.find (hashToken p raw) = db.refreshTokens.find (hashToken p raw) := by
      intro hne
      rw [hmarked, DB.find_putRefreshToken, if_neg hne]
    have hnew := redeemable_putRefreshToken marked
      (t := refreshed env rt (hashToken p raw)) rfl (env.clock 4)
    rw [hdb]
    constructor
    · rintro (⟨-, hold, raw', htoken', hnew'⟩ | ⟨hfailed, -⟩)
      · obtain rfl := Option.some.inj (htoken.symm.trans htoken')
        refine ⟨h, fun hash hdraws' => ?_⟩
        obtain rfl := hdraws.unique hdraws'
        have hne : hashToken p raw ≠ rt.hash := by
          intro hsame
          obtain ⟨now, hnow⟩ := exists_redeemable_refreshed env marked
            (hashToken p raw) fun hne => absurd hsame hne
          exact hold now hnow
        refine ⟨hne, fun row hrow => ?_⟩
        have hexpiry := hnew.mp hnew'
        rw [show (refreshed env rt (hashToken p raw)).hash = hashToken p raw from rfl,
          hothers hne, hrow] at hexpiry
        exact hexpiry
      · rw [hsuccess] at hfailed
        cases hfailed
    · rintro ⟨-, hfresh⟩
      obtain ⟨hne, hexpiry⟩ := hfresh _ hdraws
      refine .inl ⟨hsuccess, fun now hredeemable => ?_, raw, htoken, hnew.mpr ?_⟩
      · have hne' : rt.hash ≠ (refreshed env rt (hashToken p raw)).hash := fun heq => hne heq.symm
        exact not_redeemable_of_not_live hspent now
          ((redeemable_putRefreshToken_of_ne hne' now).mp hredeemable)
      · rw [show (refreshed env rt (hashToken p raw)).hash = hashToken p raw from rfl, hothers hne]
        cases hrow : db.refreshTokens.find (hashToken p raw) with
        | none =>
          have httl : 0 ≤ refreshTokenTTL := by decide
          show env.clock 4 ≤ env.clock 4 + refreshTokenTTL
          omega
        | some row => exact hexpiry row hrow
  · obtain ⟨hfailed, hdb⟩ := run_issueRefreshedTokens_fails marked h
    rw [hdb]
    refine iff_of_false ?_ fun h' => h h'.1
    rintro (⟨hsuccess, -⟩ | ⟨-, hold⟩)
    · rw [hfailed] at hsuccess
      cases hsuccess
    · exact not_redeemable_of_not_live hspent _ hold

theorem allOrNothing_unmarked (hold : Redeemable db rt.hash (env.clock 0)) :
    AllOrNothing p env rt.hash ((issueRefreshedTokens p env rt).run faults db).1
        ((issueRefreshedTokens p env rt).run faults db).2
      ↔ ¬(Mints p env rt ∧ faults 0 = none) := by
  by_cases h : Mints p env rt ∧ faults 0 = none
  · obtain ⟨raw, -, hsuccess, -, hdb⟩ := run_issueRefreshedTokens_ok db h.1 h.2
    rw [hdb]
    refine iff_of_false ?_ fun h' => h' h
    rintro (⟨-, hspent, -⟩ | ⟨hfailed, -⟩)
    · obtain ⟨now, hnow⟩ := exists_redeemable_refreshed env db (hashToken p raw)
        fun _ => ⟨_, hold⟩
      exact hspent now hnow
    · rw [hsuccess] at hfailed
      cases hfailed
  · obtain ⟨hfailed, hdb⟩ := run_issueRefreshedTokens_fails db h
    rw [hdb]
    exact iff_of_true (.inr ⟨hfailed, hold⟩) h

theorem allOrNothing_rotate (hold : Redeemable db rt.hash (env.clock 0)) :
    AllOrNothing p env rt.hash ((rotateRefreshToken p env rt).run (fun n => faults (n + 2)) db).1
        ((rotateRefreshToken p env rt).run (fun n => faults (n + 2)) db).2
      ↔ Undivided p env rt db faults := by
  rw [run_rotateRefreshToken]
  by_cases hmark : faults 2 = none
  · rw [if_pos hmark, allOrNothing_marked rfl]
    constructor
    · rintro ⟨hrest, hdrawn⟩
      exact ⟨iff_of_true hmark hrest, fun _ => hdrawn⟩
    · intro h
      exact ⟨h.together.mp hmark, h.drawn hmark⟩
  · rw [if_neg hmark, allOrNothing_unmarked hold]
    constructor
    · intro hrest
      exact ⟨iff_of_false hmark hrest, fun h => absurd h hmark⟩
    · intro h hrest
      exact hmark (h.together.mpr hrest)

end Rotation

/-! ## The grant -/

section Grant

variable {p : Provider} {env : Env} {r : Request} {form : Map Bytes} {rt : RefreshToken} {db : DB}

theorem reads_validateClientAuth (sha256 : Bytes → Bytes) (r : Request) (form : Map Bytes)
    (clientID : Bytes) : (validateClientAuth sha256 r form clientID).Within (· = ·) := by
  refine within_bind (within_bind (within_select (fun _ => rfl) _) fun _ => trivial) fun res => ?_
  split
  · exact within_ite trivial (within_ite trivial (within_ite trivial trivial))
  · trivial

theorem run_handleRefreshTokenGrant (hraw : param form "refresh_token" ≠ [])
    (hrow : db.refreshTokens.find (hashToken p (param form "refresh_token")) = some rt)
    (hunused : rt.usedAt = none) (hvalid : env.clock 0 ≤ rt.expiresAt)
    (faults : Faults) :
    (Admitted p r form rt db faults
        ∧ (handleRefreshTokenGrant p env r form).run faults db
          = (rotateRefreshToken p env rt).run (fun n => faults (n + 2)) db)
      ∨ (¬Admitted p r form rt db faults
        ∧ ((handleRefreshTokenGrant p env r form).run faults db).1.success = false
        ∧ ((handleRefreshTokenGrant p env r form).run faults db).2 = db) := by
  have hexpired : ¬env.clock 0 > rt.expiresAt := Int.not_lt.mpr hvalid
  have hused : ¬rt.usedAt.isSome := by
    rw [hunused]
    exact Bool.false_ne_true
  simp only [handleRefreshTokenGrant, if_neg hraw, getRefreshToken, run_lookup_bind, hrow, found,
    Res.wrapErr_ok]
  cases hfirst : faults 0 with
  | some e =>
    refine .inr ⟨fun h => ?_, rfl, rfl⟩
    rw [Admitted, hfirst] at h
    cases h.1
  | none =>
    simp only [if_neg hexpired, if_neg hused]
    rw [run_bind_of_takes _ (takes_validateClientAuth ..)]
    have hsame := wp_run ((reads_validateClientAuth p.sha256 r form rt.clientID).wp
      (fun _ => rfl) Eq.trans db) fun n => faults (n + 1)
    rw [← hsame]
    cases hauth : ((validateClientAuth p.sha256 r form rt.clientID).run
        (fun n => faults (n + 1)) db).1 with
    | ok u => exact .inl ⟨⟨hfirst, hauth⟩, rfl⟩
    | err e =>
      refine .inr ⟨fun h => ?_, rfl, rfl⟩
      rw [Admitted, hauth] at h
      cases h.2
    | panics reason =>
      refine .inr ⟨fun h => ?_, rfl, rfl⟩
      rw [Admitted, hauth] at h
      cases h.2

/-- A refresh is all or nothing exactly if the marking of the old token succeeds together with the
new one. -/
theorem refresh_atomic_iff (p : Provider) (env : Env) (r : Request) (form : Map Bytes) (db : DB)
    (rt : RefreshToken) (faults : Faults) (hraw : param form "refresh_token" ≠ [])
    (hrow : db.refreshTokens.find (hashToken p (param form "refresh_token")) = some rt)
    (hunused : rt.usedAt = none) (hvalid : env.clock 0 ≤ rt.expiresAt) :
    AllOrNothing p env (hashToken p (param form "refresh_token"))
        ((handleRefreshTokenGrant p env r form).run faults db).1
        ((handleRefreshTokenGrant p env r form).run faults db).2
      ↔ (Admitted p r form rt db faults → Undivided p env rt db faults) := by
  have hhash : rt.hash = hashToken p (param form "refresh_token") := Table.key_of_find hrow
  have hold : Redeemable db rt.hash (env.clock 0) := ⟨rt, hhash ▸ hrow, hunused, hvalid⟩
  rw [← hhash]
  rcases run_handleRefreshTokenGrant hraw hrow hunused hvalid faults with
    ⟨hadmitted, hrun⟩ | ⟨hrefused, hfailed, hdb⟩
  · rw [hrun, allOrNothing_rotate hold]
    exact ⟨fun h _ => h, fun h => h hadmitted⟩
  · rw [hdb]
    exact iff_of_true (.inr ⟨hfailed, hold⟩) fun h => absurd h hrefused

end Grant

namespace Sample

def refreshForm : Map Bytes := refresh.form.getD .empty

def presented : RefreshToken :=
  (exchanged.refreshTokens.find (hashToken provider (param refreshForm "refresh_token"))).getD
    ⟨[], [], [], [], 0, 0, none⟩

def failing (n : Nat) : Faults :=
  fun m => if m = n then some (.new "disk full" []) else none

def oldHash : Bytes := hashToken provider (param refreshForm "refresh_token")

def refreshing (faults : Faults) : Answer × DB :=
  (handleRefreshTokenGrant provider (env 4) refresh refreshForm).run faults exchanged

end Sample

open Sample

theorem refresh_atomic_sample :
    AllOrNothing provider (env 4) oldHash
      (refreshing fun _ => none).1 (refreshing fun _ => none).2 := by
  have hmints : Mints provider (env 4) presented :=
    ⟨Res.isOk_iff.mp (by decide), Res.isOk_iff.mp (by decide)⟩
  refine (refresh_atomic_iff provider (env 4) refresh refreshForm
    exchanged presented (fun _ => none) (by decide) (by decide) (by decide)
    (by decide)).mpr fun _ => ⟨iff_of_true rfl ⟨hmints, rfl⟩, ?_⟩
  rintro - hash ⟨raw, hdrawn⟩
  cases hdrawn
  refine ⟨by decide, fun row hrow => ?_⟩
  cases hrow

/-- The new token cannot be stored, or the old one cannot be marked. -/
theorem refresh_divided :
    ¬AllOrNothing provider (env 4) oldHash (refreshing (failing 3)).1 (refreshing (failing 3)).2
      ∧ ¬AllOrNothing provider (env 4) oldHash
        (refreshing (failing 2)).1 (refreshing (failing 2)).2 := by
  constructor
  · rintro (⟨hsuccess, -⟩ | ⟨-, hold⟩)
    · exact absurd hsuccess (by decide)
    · exact not_redeemable_of_not_live (by decide) _ hold
  · rintro (⟨-, hspent, -⟩ | ⟨hfailed, -⟩)
    · exact hspent 0 ⟨presented, by decide, by decide, by decide⟩
    · exact absurd hfailed (by decide)

end TptIdentity.Oidc
