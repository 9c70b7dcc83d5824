import TptIdentity.GoSection
import TptIdentity.SessionRuns

/-!
# External links

The mapper's operations are several store calls each. `UnlinkIdentity` deletes whatever link it
is told to (`unlinkIdentity_isolated_iff`). If calls do not overlap, and no failed look-up is
taken for a missing link, all logins get one DID (`agreed_of_orderly`) and the last link stays
(`linked_of_excluded`).
-/

namespace TptIdentity.Bridge

open Go Store Oidc Pool Proc Table

/-! ## Unlinking -/

def linkCount (subjectDID : Bytes) (db : DB) : Nat :=
  (db.externalLinks.rows.filter fun l => l.subjectDID = subjectDID).length

def DB.unlink (db : DB) (provider externalID : Bytes) : DB :=
  { db with externalLinks := db.externalLinks.delete (provider, externalID) }

theorem run_unlinkIdentity (subjectDID provider externalID : Bytes) (faults : Faults) (db : DB) :
    ((unlinkIdentity subjectDID provider externalID).run faults db).2
      = if 1 < linkCount subjectDID db ∧ faults 0 = none ∧ faults 1 = none then
          DB.unlink db provider externalID
        else db := by
  have hlen : ((db.externalLinks.rows.filter fun l => l.subjectDID = subjectDID).insertionSort
      fun a b => b.linkedAt ≤ a.linkedAt).length = linkCount subjectDID db :=
    List.length_insertionSort ..
  rw [unlinkIdentity, listExternalLinks, select, run_query_bind]
  cases h0 : faults 0 with
  | some e =>
    rw [if_neg fun h => by cases h.2.1]
    rfl
  | none =>
    simp only [hlen, true_and]
    by_cases hcount : linkCount subjectDID db ≤ 1
    · rw [if_pos hcount, if_neg fun h => absurd h.1 (Nat.not_lt.mpr hcount)]
      rfl
    · rw [if_neg hcount, deleteExternalLink, exec, run_query, Nat.zero_add]
      have hlt : 1 < linkCount subjectDID db := Nat.lt_of_not_le hcount
      cases h1 : faults 1 with
      | none =>
        rw [if_pos ⟨hlt, rfl⟩]
        rfl
      | some e =>
        rw [if_neg fun h => by cases h.2]

/-- The links of all other subjects are as they were, whichever calls fail. -/
def Isolated (db : DB) (subjectDID provider externalID : Bytes) : Prop :=
  ∀ faults, ∀ l : ExternalProviderLink, l.subjectDID ≠ subjectDID →
    (l ∈ ((unlinkIdentity subjectDID provider externalID).run faults db).2.externalLinks.rows
      ↔ l ∈ db.externalLinks.rows)

/-- Unlinking leaves other subjects alone exactly if the caller has at most one link or names no
link of another. -/
theorem unlinkIdentity_isolated_iff (db : DB) (subjectDID provider externalID : Bytes) :
    Isolated db subjectDID provider externalID
      ↔ linkCount subjectDID db ≤ 1
        ∨ ∀ l, db.externalLinks.find (provider, externalID) = some l →
          l.subjectDID = subjectDID := by
  constructor
  · intro h
    by_contra hnot
    simp only [not_or, not_forall] at hnot
    obtain ⟨hcount, l, hl, hsub⟩ := hnot
    -- the deletion is made, and the link is gone
    have hmem := (h (fun _ => none) l hsub).mpr (mem_of_find hl)
    rw [run_unlinkIdentity, if_pos ⟨Nat.lt_of_not_le hcount, rfl, rfl⟩] at hmem
    exact (mem_delete.mp hmem).2 (key_of_find hl)
  · intro h faults l hsub
    rw [run_unlinkIdentity]
    split
    · next hdel =>
      rw [DB.unlink, mem_delete, and_iff_left_iff_imp]
      intro hl hkey
      rcases h with hcount | hown
      · exact absurd hdel.1 (Nat.not_lt.mpr hcount)
      · exact hsub (hown l (hkey ▸ mem_rows_iff.mp hl))
    · rfl

namespace SampleLinks

def linked : DB :=
  let save db l := ((saveExternalLink l).run (fun _ => none) db).2
  [⟨"did:key:zA", "google", "alice", 0, 0⟩, ⟨"did:key:zA", "github", "alice", 0, 0⟩,
    ⟨"did:key:zB", "google", "bob", 0, 0⟩].foldl save .empty

def bobs : ExternalProviderLink := ⟨"did:key:zB", "google", "bob", 0, 0⟩

end SampleLinks

open SampleLinks

theorem not_isolated_bobs : ¬Isolated linked "did:key:zA" "google" "bob" := by
  intro h
  have hmem := (h (fun _ => none) bobs (by decide)).mpr (by decide)
  exact absurd hmem (by decide)

/-! ## Unlinking at the same time -/

structure Unlink where
  subjectDID : Bytes
  provider : Bytes
  externalID : Bytes
deriving DecidableEq, Repr

def Unlink.proc (u : Unlink) : Proc DB (Res Unit) :=
  unlinkIdentity u.subjectDID u.provider u.externalID

section Unlinks

variable {ι : Type}

def OwnLinks (requests : ι → Unlink) (db : DB) : Prop :=
  ∀ i l, db.externalLinks.find ((requests i).provider, (requests i).externalID) = some l →
    l.subjectDID = (requests i).subjectDID

theorem OwnLinks.unlink {requests : ι → Unlink} {db : DB} (h : OwnLinks requests db)
    (provider externalID : Bytes) : OwnLinks requests (DB.unlink db provider externalID) := by
  intro i l hl
  rw [DB.unlink, find_delete] at hl
  split at hl
  · cases hl
  · exact h i l hl

theorem serves_unlinkIdentity (requests : ι → Unlink) (i : ι) (count : Nat) :
    (requests i).proc.Serves linkCount (requests i).subjectDID (OwnLinks requests)
      (fun _ => True) (fun n n' => 1 ≤ n → 1 ≤ n') (fun _ _ => True) (fun _ _ => True) 0 count := by
  intro db hown hcount
  refine ⟨fun _ => ⟨⟨hown, fun _ _ => rfl⟩, hcount ▸ fun h => h, ?_⟩, ?_⟩
  · have hlen : ((db.externalLinks.rows.filter
        fun l => l.subjectDID = (requests i).subjectDID).insertionSort
          fun a b => b.linkedAt ≤ a.linkedAt).length = count :=
      (List.length_insertionSort ..).trans hcount
    show Serves _ _ _ _ _ _ _ 1 (ite (List.length _ ≤ 1) _ _) _
    rw [hlen]
    by_cases hlast : count ≤ 1
    · rw [if_pos hlast]
      exact serves_pure trivial trivial
    · -- of two links or more one stays, as nobody has touched them since
      rw [if_neg hlast]
      intro db' hown hsame
      have hcount' : linkCount (requests i).subjectDID db' = count := hsame.trans hcount
      refine ⟨fun _ => ⟨⟨hown.unlink _ _, fun subjectDID hne => ?_⟩, fun _ => ?_, trivial, trivial⟩,
        fun e _ => ⟨trivial, trivial⟩⟩
      · refine congrArg List.length (filter_delete fun l hl => ?_)
        rw [hown i l hl]
        exact decide_eq_false (Ne.symm hne)
      · have hdel : linkCount (requests i).subjectDID db'
            ≤ linkCount (requests i).subjectDID
              (DB.unlink db' (requests i).provider (requests i).externalID) + 1 :=
          db'.externalLinks.length_filter_le_delete _ _
        show 1 ≤ linkCount (requests i).subjectDID
          (DB.unlink db' (requests i).provider (requests i).externalID)
        omega
  · exact fun e _ => serves_pure trivial trivial

def StillLinked (db : DB) (pool : Pool ι DB (Res Unit)) : Prop :=
  ∀ subjectDID, 1 ≤ linkCount subjectDID db → 1 ≤ linkCount subjectDID pool.state

/-- A subject keeps a link in every schedule in which its unlink requests exclude each other. -/
theorem linked_of_excluded [DecidableEq ι] (requests : ι → Unlink) (db : DB)
    (hown : OwnLinks requests db) (schedule : List (ι × Option Err))
    (hexcl : EveryStep step (Excluded fun i => (requests i).subjectDID)
      (start db fun i => (requests i).proc) schedule) :
    EveryState step (StillLinked db) (start db fun i => (requests i).proc) schedule := by
  have hsteps := (everyState_of_excluded (fun i => (requests i).subjectDID) linkCount
    (OwnLinks requests) (fun _ _ => True) (fun _ n n' => 1 ≤ n → 1 ≤ n') (fun _ _ _ => True)
    (fun _ _ => True) (fun _ _ h => h) (fun _ _ _ _ _ h => h)
    (fun i count _ => serves_unlinkIdentity requests i count) hown (fun _ => trivial)
    (fun _ _ h => h) (fun _ _ _ => trivial) hexcl).1
  exact everyState_of_everyStep (I := StillLinked db) (fun _ h => h)
    (fun pool e h hstep subjectDID hlinked => hstep subjectDID (h subjectDID hlinked))
    (fun _ h => h) hsteps

end Unlinks

namespace SampleLinks

def requests (second : Bool) : Unlink :=
  ⟨"did:key:zA", if second then "github" else "google", "alice"⟩

theorem ownLinks : OwnLinks requests linked := by
  intro i l hl
  cases i with
  | false =>
    have hfind : linked.externalLinks.find ("google", "alice")
        = some ⟨"did:key:zA", "google", "alice", 0, 0⟩ := by decide
    rw [← Option.some.inj (hfind.symm.trans hl)]
    rfl
  | true =>
    have hfind : linked.externalLinks.find ("github", "alice")
        = some ⟨"did:key:zA", "github", "alice", 0, 0⟩ := by decide
    rw [← Option.some.inj (hfind.symm.trans hl)]
    rfl

def pool : Pool Bool DB (Res Unit) := start linked fun i => (requests i).proc

def inTurn : List (Bool × Option Err) := [(false, none), (false, none), (true, none), (true, none)]

def overlapping : List (Bool × Option Err) :=
  [(false, none), (true, none), (false, none), (true, none)]

end SampleLinks

theorem linked_inTurn : EveryState step (StillLinked linked) pool inTurn :=
  linked_of_excluded requests linked ownLinks inTurn (by decide)

theorem not_linked_overlapped : ¬EveryState step (StillLinked linked) pool overlapping := by
  intro h
  exact absurd (everyState_last h "did:key:zA" (by decide)) (by decide)

/-! ## Logging in and linking at the same time -/

def owner (key : Bytes × Bytes) (db : DB) : Option Bytes :=
  (db.externalLinks.find key).map (·.subjectDID)

theorem owner_save (key : Bytes × Bytes) (l : ExternalProviderLink) (db : DB) :
    owner key { db with
      externalLinks := db.externalLinks.upsert ExternalProviderLink.merge
        ExternalProviderLink.key_merge l }
      = if key = l.key then some l.subjectDID else owner key db := by
  unfold owner
  rw [find_upsert]
  split
  · next h =>
    cases db.externalLinks.find key with
    | none => rfl
    | some old => rfl
  · rfl

inductive MapperCall where
  | findOrCreate (env : Env) (ext : ExternalIdentity)
  | linkIdentity (now : Int) (subjectDID : Bytes) (ext : ExternalIdentity)

def MapperCall.key : MapperCall → Bytes × Bytes
  | .findOrCreate _ ext => (ext.provider, ext.externalID)
  | .linkIdentity _ _ ext => (ext.provider, ext.externalID)

def loginDID : Res (Bytes × Bool) → Option Bytes
  | .ok (subjectDID, _) => some subjectDID
  | _ => none

def MapperCall.proc (srv : Server) : MapperCall → Proc DB (Option Bytes)
  | .findOrCreate env ext => do return loginDID (← Bridge.findOrCreate srv env ext)
  | .linkIdentity now subjectDID ext => do
    let _ ← Bridge.linkIdentity now subjectDID ext
    return none

/-- A lookup does not fail in a way that reads as if there were no link. -/
def LookupFails (n : Nat) (fault : Option Err) : Prop :=
  n = 0 → ∀ e ∈ fault, isNotFound (.wrap "get external link: %w" [] e) = false
deriving Decidable

def KeepsOwner (v v' : Option Bytes) : Prop := ∀ did, v = some did → v' = some did

def NamesOwner (v did : Option Bytes) : Prop := ∀ d, did = some d → v = some d

variable (srv : Server)

variable {n : Nat} {v : Option Bytes} (env : Env)

theorem owner_createIdentity :
    (createIdentity srv env).Within fun db db' => ∀ key, owner key db' = owner key db := by
  unfold createIdentity
  split
  · refine within_bind (within_exec fun _ _ => rfl) fun r => ?_
    split
    · refine within_bind ?_ fun _ => trivial
      unfold saveDocument
      split
      · exact within_exec fun _ _ => rfl
      · trivial
      · trivial
    · trivial
  · trivial
  · trivial

def Orderly (key : Bytes × Bytes) (n : Nat) (p : Proc DB (Option Bytes)) (v : Option Bytes) :
    Prop :=
  p.Serves owner key (fun _ => True) (fun _ => True) KeepsOwner NamesOwner LookupFails n v

theorem orderly_none {key : Bytes × Bytes} :
    Orderly key n (pure none) v := serves_pure trivial fun _ h => by cases h

theorem orderly_saveExternalLink {l : ExternalProviderLink} {k : Res Unit → Proc DB (Option Bytes)}
    (hv : ∀ did, v = some did → did = l.subjectDID)
    (hok : Orderly l.key (n + 1) (k (.ok ())) (some l.subjectDID))
    (herr : ∀ e, Orderly l.key (n + 1) (k (.err e)) v) :
    Orderly l.key n (saveExternalLink l >>= k) v := by
  intro db _ hdb
  have howner := (owner_save l.key l db).trans (if_pos rfl)
  refine ⟨fun _ => ⟨⟨trivial, ?_⟩, fun did hdid => ?_, ?_⟩, fun e _ => herr e⟩
  · exact fun key hne => (owner_save key l db).trans (if_neg hne)
  · rw [hv did hdid]
    exact howner
  · show Orderly l.key (n + 1) (k (.ok ())) (owner l.key _)
    rw [howner]
    exact hok

theorem orderly_getExternalLink {provider externalID : Bytes}
    {k : Res ExternalProviderLink → Proc DB (Option Bytes)}
    (hfound : ∀ l, l.key = (provider, externalID) → v = some l.subjectDID →
      Orderly (provider, externalID) 1 (k (.ok l)) v) (hnone : v = none → ∀ e, isNotFound e →
      Orderly (provider, externalID) 1 (k (.err e)) v)
    (hfail : ∀ e, isNotFound e = false → Orderly (provider, externalID) 1 (k (.err e)) v) :
    Orderly (provider, externalID) 0 (getExternalLink provider externalID >>= k) v := by
  intro db _ hdb
  refine ⟨fun _ => ⟨⟨trivial, fun _ _ => rfl⟩, fun did hdid => hdb.trans hdid, ?_⟩,
    fun e he => hfail _ (he rfl e rfl)⟩
  show Orderly (provider, externalID) 1
    (k ((found (db.externalLinks.find (provider, externalID))).wrapErr "get external link: %w" []))
    (owner (provider, externalID) db)
  rw [hdb]
  unfold owner at hdb
  cases hfind : db.externalLinks.find (provider, externalID) with
  | some l =>
    rw [hfind] at hdb
    exact hfound l (key_of_find hfind) hdb.symm
  | none =>
    rw [hfind] at hdb
    exact hnone hdb.symm _ (by decide)

theorem orderly_findOrCreate (ext : ExternalIdentity) (v : Option Bytes) :
    Orderly (ext.provider, ext.externalID) 0 ((MapperCall.findOrCreate env ext).proc srv) v := by
  show Orderly _ 0 ((getExternalLink ext.provider ext.externalID).bind _ |>.bind _) v
  rw [bind_bind]
  refine orderly_getExternalLink ?_ ?_ ?_
  · intro l hkey hv
    show Orderly _ 1 (saveExternalLink { l with lastUsedAt := env.clock 0 } >>= fun _ =>
      pure (some l.subjectDID)) v
    rw [← show ({ l with lastUsedAt := env.clock 0 } : ExternalProviderLink).key = _ from hkey]
    refine orderly_saveExternalLink (fun did hdid => ?_) ?_ fun e => ?_
    · exact Option.some.inj (hdid.symm.trans hv)
    · exact serves_pure trivial fun _ h => h
    · exact serves_pure trivial fun _ h => hv.trans h
  · intro hv e he
    show Orderly _ 1 ((ite (isNotFound e) _ _ : Proc DB _).bind _) v
    rw [if_pos he]
    show Orderly _ 1 ((createIdentity srv env).bind _ |>.bind _) v
    rw [bind_bind]
    refine serves_bind_quiet (fun _ h => h)
      ((owner_createIdentity srv env).mono fun _ _ h _ => ⟨trivial, h⟩) ?_
    intro r n _
    cases r with
    | ok subjectDID =>
      show Orderly _ n ((saveExternalLink ⟨subjectDID, ext.provider, ext.externalID, _, _⟩).bind _
        |>.bind _) v
      rw [bind_bind]
      refine orderly_saveExternalLink (l := ⟨subjectDID, ext.provider, ext.externalID, _, _⟩)
        (fun did hdid => ?_) ?_ fun e => ?_
      · rw [hv] at hdid
        cases hdid
      · exact serves_pure trivial fun _ h => h
      · exact orderly_none
    | err e => exact orderly_none
    | panics reason => exact orderly_none
  · intro e he
    show Orderly _ 1 ((ite (isNotFound e) _ _ : Proc DB _).bind _) v
    rw [if_neg (Bool.eq_false_iff.mp he)]
    exact orderly_none

theorem orderly_linkIdentity (now : Int) (subjectDID : Bytes) (ext : ExternalIdentity)
    (v : Option Bytes) :
    Orderly (ext.provider, ext.externalID) 0
      ((MapperCall.linkIdentity now subjectDID ext).proc srv) v := by
  show Orderly _ 0 ((getExternalLink ext.provider ext.externalID).bind _ |>.bind _) v
  rw [bind_bind]
  refine orderly_getExternalLink ?_ ?_ ?_
  · intro l _ _
    show Orderly _ 1 ((ite (l.subjectDID ≠ subjectDID) _ _ : Proc DB _).bind _) v
    split
    · exact orderly_none
    · exact orderly_none
  · intro hv e he
    show Orderly _ 1 ((ite (isNotFound e) _ _ : Proc DB _).bind _) v
    rw [if_pos he]
    refine orderly_saveExternalLink (l := ⟨subjectDID, ext.provider, ext.externalID, _, _⟩)
      (fun did hdid => ?_) orderly_none fun e => orderly_none
    rw [hv] at hdid
    cases hdid
  · intro e he
    show Orderly _ 1 ((ite (isNotFound e) _ _ : Proc DB _).bind _) v
    rw [if_neg (Bool.eq_false_iff.mp he)]
    exact orderly_none

theorem orderly_call (c : MapperCall) (v : Option Bytes) : Orderly c.key 0 (c.proc srv) v := by
  cases c with
  | findOrCreate env ext => exact orderly_findOrCreate srv env ext v
  | linkIdentity now subjectDID ext => exact orderly_linkIdentity srv now subjectDID ext v

section Calls

variable {ι : Type} [DecidableEq ι]

/-- All logins of one external identity have returned the same DID. -/
def Agreed (calls : ι → MapperCall) (pool : Pool ι DB (Option Bytes)) : Prop :=
  ∀ i j d d', (calls i).key = (calls j).key → (pool.threads i).result = some (some d) →
    (pool.threads j).result = some (some d') → d = d'

def Kept (pool : Pool ι DB (Option Bytes)) (e : ι × Option Err) : Prop :=
  ∀ key, KeepsOwner (owner key pool.state) (owner key (pool.step e).state)

/-- All logins of an external identity get one DID in every schedule in which lookups for it wait
for each other and no failure is taken for a missing link. -/
theorem agreed_of_orderly (srv : Server) (calls : ι → MapperCall) (db : DB)
    (schedule : List (ι × Option Err))
    (horderly : EveryStep step (fun pool e => Excluded (fun i => (calls i).key) pool e
        ∧ LookupFails (pool.threads e.1).calls e.2)
      (start db fun i => (calls i).proc srv) schedule) :
    EveryState step (Agreed calls) (start db fun i => (calls i).proc srv) schedule
      ∧ EveryStep step Kept (start db fun i => (calls i).proc srv) schedule := by
  obtain ⟨hsteps, hstates⟩ := everyState_of_excluded (fun i => (calls i).key) owner
    (fun _ => True) (fun _ _ => True) (fun _ => KeepsOwner) (fun _ => NamesOwner) LookupFails
    (fun _ _ _ h => h) (fun _ v v' did hkeep hnames d hd => hkeep d (hnames d hd))
    (fun i v _ => orderly_call srv (calls i) v) trivial (fun _ => trivial)
    (fun _ _ h => h.1) (fun _ _ h => h.2) horderly
  refine ⟨everyState_mono (fun pool h i j d d' hkey hi hj => ?_) hstates, hsteps⟩
  have hd := h i _ hi d rfl
  have hd' := h j _ hj d' rfl
  rw [hkey, hd'] at hd
  exact (Option.some.inj hd).symm

end Calls

namespace SampleLinks

def calls : Fin 3 → MapperCall
  | 0 => .findOrCreate ⟨.of fun _ _ => 1, fun _ => 0⟩ ⟨"google", "carol", .empty, false⟩
  | 1 => .findOrCreate ⟨.of fun _ _ => 2, fun _ => 0⟩ ⟨"google", "carol", .empty, false⟩
  | 2 => .linkIdentity 0 "did:key:zA" ⟨"google", "carol", .empty, false⟩

def logins : Pool (Fin 3) DB (Option Bytes) :=
  start linked fun i => (calls i).proc Sample.server

def did (n : UInt8) : Bytes := "did:key:z" ++ encodeHex (0xed :: 0x01 :: List.replicate 32 n)

def loginsInTurn : List (Fin 3 × Option Err) :=
  [(0, none), (0, none), (0, none), (0, none), (1, none), (1, none), (2, none)]

def loginsOverlapping : List (Fin 3 × Option Err) :=
  [(0, none), (1, none), (0, none), (0, none), (0, none), (1, none), (1, none), (1, none)]

end SampleLinks

theorem agreed_inTurn :
    EveryState step (Agreed calls) logins loginsInTurn
      ∧ EveryStep step Kept logins loginsInTurn :=
  agreed_of_orderly Sample.server calls linked loginsInTurn (by decide)

theorem not_agreed_overlapped :
    ¬EveryState step (Agreed calls) logins loginsOverlapping
      ∧ ¬EveryStep step Kept logins loginsOverlapping := by
  constructor
  · intro h
    exact absurd (everyState_last h 0 1 (did 1) (did 2) rfl (by decide) (by decide)) (by decide)
  · rintro ⟨-, -, -, -, -, -, -, hlast, -⟩
    exact absurd (hlast ("google", "carol") (did 1) (by decide +kernel)) (by decide +kernel)

end TptIdentity.Bridge
