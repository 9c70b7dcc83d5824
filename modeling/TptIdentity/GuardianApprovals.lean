import Mathlib.Data.Set.Card
import TptIdentity.GoSection
import TptIdentity.GuardianShares

/-!
# Counting approvals

An approval stores a share under the approver's DID, and writes the count it read plus one. The
count is right if approvals of one request do not overlap, each is by a guardian who has not
approved yet, and no write fails (`everyState_counted`). Each of these is needed
(`not_counted`).
-/

namespace TptIdentity.Guardian

open Go Store Oidc Bridge Events List Table Pool

structure Approval where
  env : Env
  r : Request
  requestID : Bytes
  body : Option Bytes

variable {requestID guardianDID : Bytes} {share : RecoveryShare} {guardianDIDs : List Bytes}
  {v : Option RecoveryRequest × List RecoveryShare} {req : RecoveryRequest} (srv : Server)

namespace Approval

def bearer (a : Approval) : Res Bytes :=
  srv.subjectFromBearer (param a.r.header "Authorization")

def proc (a : Approval) : Proc DB Reply :=
  handleRecoveryApprove srv newBus a.env a.r a.requestID a.body

end Approval

/-! ## What approvals of one request work on -/

def sharesOf (requestID : Bytes) (db : DB) : List RecoveryShare :=
  db.recoveryShares.rows.filter fun share => share.requestID = requestID

def viewOf (requestID : Bytes) (db : DB) : Option RecoveryRequest × List RecoveryShare :=
  (db.recoveryRequests.find requestID, sharesOf requestID db)

theorem sharesOf_putRecoveryShare_of_ne (h : requestID ≠ share.requestID) (db : DB) :
    sharesOf requestID (db.putRecoveryShare share) = sharesOf requestID db := by
  unfold sharesOf DB.putRecoveryShare upsert
  split
  · rw [append, filter_append, filter_cons_of_neg (by simpa using Ne.symm h),
      filter_nil, append_nil]
  · have hid : mergeInto RecoveryShare.key (fun old _ => old) share = id :=
      funext fun old => ite_self old
    show filter _ (map _ db.recoveryShares.rows) = _
    rw [hid, map_id]

theorem sharesOf_putRecoveryShare {db : DB} (h : db.recoveryShares.find share.key = none) :
    sharesOf share.requestID (db.putRecoveryShare share)
      = sharesOf share.requestID db ++ [share] := by
  unfold sharesOf DB.putRecoveryShare upsert
  rw [dif_pos h, append, filter_append, filter_cons_of_pos (by simp), filter_nil]

theorem nodup_sharesOf (requestID : Bytes) (db : DB) :
    ((sharesOf requestID db).map RecoveryShare.guardianDID).Nodup := by
  have hkeys : ((sharesOf requestID db).map RecoveryShare.key).Nodup :=
    db.recoveryShares.nodup.sublist (filter_sublist.map _)
  have hmap : (sharesOf requestID db).map RecoveryShare.key
      = ((sharesOf requestID db).map RecoveryShare.guardianDID).map fun d => (requestID, d) := by
    rw [map_map]
    refine map_congr_left ?_
    intro share hshare
    have hid : share.requestID = requestID := by simpa using (mem_filter.mp hshare).2
    show (share.requestID, share.guardianDID) = (requestID, share.guardianDID)
    rw [hid]
  rw [hmap] at hkeys
  exact hkeys.of_map _

theorem mem_sharesOf {db : DB} :
    guardianDID ∈ (sharesOf requestID db).map RecoveryShare.guardianDID
      ↔ (db.recoveryShares.find (requestID, guardianDID)).isSome := by
  rw [mem_map]
  constructor
  · rintro ⟨share, hshare, rfl⟩
    obtain ⟨hrow, hid⟩ := mem_filter.mp hshare
    have hid : share.requestID = requestID := by simpa using hid
    have hkey : share.key = (requestID, share.guardianDID) := by rw [← hid]; rfl
    rw [← hkey, mem_rows_iff.mp hrow]
    rfl
  · intro hfind
    obtain ⟨share, hshare⟩ := Option.isSome_iff_exists.mp hfind
    have hkey : share.key = (requestID, guardianDID) := key_of_find hshare
    obtain ⟨hid, hdid⟩ := Prod.mk.inj hkey
    refine ⟨share, mem_filter.mpr ⟨mem_of_find hshare, ?_⟩, hdid⟩
    simpa using hid

/-! ## One approval -/

def Tally (guardianDIDs : List Bytes) (v : Option RecoveryRequest × List RecoveryShare) : Prop :=
  ∃ req, v.1 = some req ∧ req.sharesCollected = v.2.length
    ∧ ∀ share ∈ v.2, share.guardianDID ∈ guardianDIDs

def Admitted (requestID : Bytes) (guardianDIDs : List Bytes) (a : Approval) (n : Nat)
    (fault : Option Err) (db : DB) : Prop :=
  a.requestID = requestID →
    (n = 0 → ∀ did, a.bearer srv = .ok did →
      did ∈ guardianDIDs ∧ db.recoveryShares.find (requestID, did) = none)
    ∧ (n = 2 → fault = none)
deriving Decidable

theorem Tally.succ {shares : List RecoveryShare} (h : Tally guardianDIDs (some req, shares))
    (share : RecoveryShare) (hmember : share.guardianDID ∈ guardianDIDs) :
    Tally guardianDIDs
      (some { req with sharesCollected := req.sharesCollected + 1 }, shares ++ [share]) := by
  obtain ⟨_, hreq, hcount, hguardians⟩ := h
  cases hreq
  refine ⟨_, rfl, ?_, ?_⟩
  · show req.sharesCollected + 1 = ((shares ++ [share]).length : Int)
    rw [hcount]
    simp
  · intro other hother
    rcases mem_append.mp hother with hother | hother
    · exact hguardians other hother
    · exact mem_singleton.mp hother ▸ hmember

section Approve

variable {srv : Server} {requestID : Bytes} {guardianDIDs : List Bytes} {a : Approval}

theorem approve_cases (srv : Server) (a : Approval) {P : Proc DB Reply → Prop}
    (hrefused : ∀ reply : Reply, reply.ok = false → P (.done reply))
    (hread : ∀ (guardianDID share : Bytes) (next : DB → Proc DB Reply) (fail : Err → Reply),
      a.bearer srv = .ok guardianDID → (∀ e, (fail e).ok = false) →
      (∀ db, (∃ reply : Reply, reply.ok = false ∧ next db = .done reply)
        ∨ ∃ req, db.recoveryRequests.find a.requestID = some req
          ∧ next db = recordApproval srv newBus a.env a.requestID guardianDID share req) →
      P (.call (fun db => db) next fun e => .done (fail e))) :
    P (a.proc srv) := by
  unfold Approval.proc handleRecoveryApprove
  cases hbearer : srv.subjectFromBearer (param a.r.header "Authorization") with
  | err e => exact hrefused _ rfl
  | panics r => exact hrefused _ rfl
  | ok guardianDID =>
    cases a.body with
    | none => exact hrefused _ rfl
    | some share =>
      dsimp only
      by_cases hshare : share = []
      · rw [if_pos hshare]
        exact hrefused _ rfl
      · rw [if_neg hshare]
        refine hread guardianDID share _ (fun _ => _) hbearer (fun _ => rfl) ?_
        intro db
        show (∃ reply : Reply, _ ∧ Proc.bind (.done (found _)) _ = _)
          ∨ ∃ req, _ ∧ Proc.bind (.done (found _)) _ = _
        cases hfind : db.recoveryRequests.find a.requestID with
        | none => exact Or.inl ⟨_, rfl, rfl⟩
        | some req =>
          dsimp only [Proc.bind, found]
          by_cases hdone : req.completed
          · rw [if_pos hdone]
            exact Or.inl ⟨_, rfl, rfl⟩
          · rw [if_neg hdone]
            exact Or.inr ⟨req, rfl, rfl⟩

theorem restores_recordApproval {share : Bytes} (hreq : v.1 = some req) (hid : req.id = a.requestID)
    (hv : a.requestID = requestID → Tally guardianDIDs v ∧ guardianDID ∈ guardianDIDs
      ∧ guardianDID ∉ v.2.map RecoveryShare.guardianDID) :
    (recordApproval srv newBus a.env a.requestID guardianDID share req).Restores
      viewOf a.requestID (fun v => a.requestID = requestID → Tally guardianDIDs v)
      (fun _ => True) (Admitted srv requestID guardianDIDs a) 3 1 v := by
  refine ⟨fun _ => ⟨trivial, ?_⟩, fun h => absurd h (by decide)⟩
  rintro db rfl
  refine ⟨fun _ => ⟨⟨trivial, ?_⟩, fun _ => ⟨trivial, ?_⟩, fun h => absurd h (by decide)⟩,
    fun _ _ heq => (hv heq).1⟩
  · exact fun other hne => Prod.ext rfl (sharesOf_putRecoveryShare_of_ne hne db)
  intro db' hview
  refine ⟨fun _ => ⟨⟨trivial, fun other hne => Prod.ext ?_ rfl⟩, fun h => absurd h (by decide),
    fun _ => ⟨?_, ?_⟩⟩, fun e hadm => ⟨fun h => absurd h (by decide), fun _ => ⟨?_, ?_⟩⟩⟩
  · show find _ other = _
    rw [find_update, if_neg (fun h => hne (h.trans hid))]
    rfl
  · -- the count was written over the row that was read, next to one more share
    intro heq
    obtain ⟨htally, hmember, hnew⟩ := hv heq
    have habsent : db.recoveryShares.find (RecoveryShare.key
        ⟨a.requestID, guardianDID, shareHash share, a.env.clock 1⟩) = none :=
      Option.not_isSome_iff_eq_none.mp fun h => hnew (mem_sharesOf.mpr h)
    obtain ⟨hrow, hshares⟩ := Prod.mk.inj hview
    replace hrow : db'.recoveryRequests.find a.requestID = some req := hrow.trans hreq
    have hbefore : Tally guardianDIDs (some req, sharesOf a.requestID db) := hreq ▸ htally
    have hafter := hbefore.succ ⟨a.requestID, guardianDID, shareHash share, a.env.clock 1⟩ hmember
    rw [← sharesOf_putRecoveryShare habsent] at hafter
    show Tally guardianDIDs (find _ a.requestID, sharesOf a.requestID db')
    rw [find_update, if_pos hid.symm, hrow, hshares]
    exact hafter
  · exact ⟨fun _ _ => rfl, fun _ => trivial, fun _ => trivial⟩
  · intro heq
    exact absurd ((hadm heq).2 rfl) (by simp)
  · exact ⟨fun _ _ => rfl, fun _ => trivial, fun _ => trivial⟩

theorem restores_approve (hv : a.requestID = requestID → Tally guardianDIDs v) :
    (a.proc srv).Restores viewOf a.requestID
      (fun v => a.requestID = requestID → Tally guardianDIDs v) (fun _ => True)
      (Admitted srv requestID guardianDIDs a) 3 0 v := by
  refine approve_cases (P := fun p => p.Restores viewOf a.requestID
    (fun v => a.requestID = requestID → Tally guardianDIDs v) _ _ 3 0 v) srv a (fun _ _ => hv) ?_
  intro guardianDID share next fail hbearer _ hnext
  refine ⟨fun _ => ⟨trivial, ?_⟩, fun h => absurd h (by decide)⟩
  rintro db rfl
  refine ⟨fun hadm => ⟨⟨trivial, fun _ _ => rfl⟩, ?_⟩, fun _ _ => hv⟩
  rcases hnext db with ⟨reply, -, heq⟩ | ⟨req, hfind, heq⟩
  · rw [heq]
    exact hv
  · rw [heq]
    refine restores_recordApproval hfind (key_of_find hfind) ?_
    intro heq
    obtain ⟨hmember, hnone⟩ := (hadm heq).1 rfl guardianDID hbearer
    refine ⟨hv heq, hmember, fun h => ?_⟩
    have hsome := mem_sharesOf.mp h
    rw [heq, hnone] at hsome
    cases hsome

/-! ## Who approved -/

def Recorded : Option (Bytes × Bytes) → DB → Prop
  | some key, db => (db.recoveryShares.find key).isSome = true
  | none, _ => False

def Approval.mark (srv : Server) (a : Approval) : Option (Bytes × Bytes) :=
  (a.bearer srv).toOption.map fun did => (a.requestID, did)

theorem recorded_putRecoveryShare (share : RecoveryShare) (db : DB) (t : Option (Bytes × Bytes)) :
    Recorded t (db.putRecoveryShare share) ↔ Recorded t db ∨ t = some share.key := by
  cases t with
  | none => simp [Recorded]
  | some key =>
    show (find _ key).isSome ↔ (find _ key).isSome ∨ _
    rw [DB.putRecoveryShare, find_upsert]
    by_cases hkey : key = share.key
    · simp [hkey]
    · simp [hkey]

theorem marks_recordApproval (guardianDID share : Bytes) (req : RecoveryRequest) :
    Marks Reply.ok Recorded (some (a.requestID, guardianDID))
      (recordApproval srv newBus a.env a.requestID guardianDID share req) := by
  refine ⟨Or.inr ⟨fun db t => recorded_putRecoveryShare _ db t, fun db => ⟨?_, ?_⟩⟩,
    fun _ => rfl⟩
  · refine Proc.returns_bind (fun _ => ?_) (updateRecoveryRequest _)
    refine Proc.returns_bind (fun _ => ?_) _
    exact Proc.returns_pure (Q := fun reply : Reply => reply.ok) rfl
  · refine Proc.within_bind (p := updateRecoveryRequest _) (Proc.within_exec ?_) fun _ => ?_
    · intro db t
      cases t with
      | none => exact Iff.rfl
      | some key => exact Iff.rfl
    · exact within_answer (fun _ _ => Iff.rfl) _ _

theorem marks_approve (srv : Server) (a : Approval) :
    Marks Reply.ok Recorded (a.mark srv) (a.proc srv) := by
  refine approve_cases (P := Marks Reply.ok Recorded _) srv a (fun _ hreply => hreply) ?_
  intro guardianDID share next fail hbearer hfail hnext
  have hmark : a.mark srv = some (a.requestID, guardianDID) := by
    rw [Approval.mark, hbearer]
    rfl
  refine ⟨Or.inl ⟨fun _ _ => Iff.rfl, fun db => ?_⟩, hfail⟩
  rcases hnext db with ⟨reply, hreply, heq⟩ | ⟨req, -, heq⟩
  · rw [heq]
    exact hreply
  · rw [heq, hmark]
    exact marks_recordApproval guardianDID share req

end Approve

/-! ## Approvals by many -/

section Pools

variable {ι : Type}

def Approved (approvals : ι → Approval) (requestID : Bytes) (pool : Pool ι DB Reply) (did : Bytes) :
    Prop :=
  ∃ i, (approvals i).requestID = requestID ∧ (approvals i).bearer srv = .ok did
    ∧ (pool.threads i).result.any Reply.ok = true

def Counted (approvals : ι → Approval) (requestID : Bytes) (guardianDIDs : List Bytes)
    (pool : Pool ι DB Reply) : Prop :=
  ∃ req, pool.state.recoveryRequests.find requestID = some req
    ∧ req.sharesCollected
      = Set.ncard {did | did ∈ guardianDIDs ∧ Approved srv approvals requestID pool did}

def guardiansOf (db : DB) (subjectDID : Bytes) : List Bytes :=
  ((db.recoveryConfigs.find subjectDID).map fun row => row.scan.guardianDIDs).getD []

def Finished (pool : Pool ι DB Reply) : Prop := ∀ i, (pool.threads i).result.isSome = true

/-- No approval starts while another one of the same request is between its first call and its
third, and those of `requestID` are admitted. -/
@[mk_iff]
structure InOrder (srv : Server) (approvals : ι → Approval) (requestID : Bytes)
    (guardianDIDs : List Bytes) (pool : Pool ι DB Reply) (e : ι × Option Err) : Prop where
  alone : Alone (fun i => (approvals i).requestID) 3 pool e
  admitted : (pool.threads e.1).result.isNone = true →
    Admitted srv requestID guardianDIDs (approvals e.1) (pool.threads e.1).calls e.2 pool.state

theorem Finished.idle {key : ι → Bytes} {pool : Pool ι DB Reply} (h : Finished pool) (m : Nat)
    (k : Bytes) : Idle key m pool k := by
  rintro i - ⟨-, -, hresult⟩
  have := h i
  rw [Option.isNone_iff_eq_none.mp hresult] at this
  cases this

theorem Approval.mark_eq_some {srv : Server} {a : Approval} {did : Bytes} :
    a.mark srv = some (requestID, did) ↔ a.requestID = requestID ∧ a.bearer srv = .ok did := by
  constructor
  · intro h
    obtain ⟨d, hd, heq⟩ := Option.map_eq_some_iff.mp h
    obtain ⟨hid, rfl⟩ := Prod.mk.inj heq
    exact ⟨hid, Res.toOption_eq_some.mp hd⟩
  · rintro ⟨rfl, hbearer⟩
    rw [Approval.mark, hbearer]
    rfl

section Counting

variable {srv : Server} {approvals : ι → Approval} {db : DB} {requestID : Bytes}
  {guardianDIDs : List Bytes} {pool : Pool ι DB Reply}

theorem approved_iff_mem_sharesOf (hnone : sharesOf requestID db = [])
    (hmarks : Marked Reply.ok Recorded (fun i => (approvals i).mark srv) db pool)
    (hdone : Finished pool) (did : Bytes) :
    Approved srv approvals requestID pool did
      ↔ did ∈ (sharesOf requestID pool.state).map RecoveryShare.guardianDID := by
  have hbefore : ¬Recorded (some (requestID, did)) db := by
    intro h
    have := mem_sharesOf.mpr h
    rw [hnone] at this
    cases this
  have hiff := hmarks.mark_iff hdone (some (requestID, did))
  rw [or_iff_right hbefore] at hiff
  rw [mem_sharesOf]
  refine Iff.trans (exists_congr fun i => ?_) hiff.symm
  rw [Approval.mark_eq_some, and_assoc]

theorem counted_of_tally (htally : Tally guardianDIDs (viewOf requestID pool.state))
    (happroved : ∀ did, Approved srv approvals requestID pool did
      ↔ did ∈ (sharesOf requestID pool.state).map RecoveryShare.guardianDID) :
    Counted srv approvals requestID guardianDIDs pool := by
  obtain ⟨req, hreq, hcount, hguardians⟩ := htally
  refine ⟨req, hreq, ?_⟩
  have hset : {did | did ∈ guardianDIDs ∧ Approved srv approvals requestID pool did}
      = (((sharesOf requestID pool.state).map RecoveryShare.guardianDID).toFinset : Set Bytes) := by
    ext did
    simp only [Set.mem_ofPred_eq, coe_toFinset]
    rw [happroved]
    constructor
    · exact And.right
    · intro hmem
      obtain ⟨share, hshare, rfl⟩ := mem_map.mp hmem
      exact ⟨hguardians share hshare, hmem⟩
  rw [hset, Set.ncard_coe_finset, toFinset_card_of_nodup (nodup_sharesOf _ _), length_map, hcount]
  rfl

end Counting

/-- The approvals are counted right in every schedule in which approvals of one request come one
after another, each is the first of a guardian and no write fails. -/
theorem everyState_counted [DecidableEq ι] (srv : Server) (approvals : ι → Approval) (db : DB)
    (requestID : Bytes) (req : RecoveryRequest)
    (hreq : db.recoveryRequests.find requestID = some req) (hzero : req.sharesCollected = 0)
    (hnone : sharesOf requestID db = []) (schedule : List (ι × Option Err))
    (hschedule : EveryStep step (InOrder srv approvals requestID (guardiansOf db req.subjectDID))
      (start db fun i => (approvals i).proc srv) schedule) :
    EveryState step (fun pool => Finished pool →
        Counted srv approvals requestID (guardiansOf db req.subjectDID) pool)
      (start db fun i => (approvals i).proc srv) schedule := by
  generalize guardiansOf db req.subjectDID = guardianDIDs at hschedule ⊢
  have hserial := everyState_of_alone (fun i => (approvals i).requestID) viewOf
    (fun k v => k = requestID → Tally guardianDIDs v) (fun _ _ => True)
    (fun i => Admitted srv requestID guardianDIDs (approvals i)) (by decide)
    (fun _ _ _ => trivial) (fun i v hv => restores_approve hv)
    (fun k hk => ⟨req, hk ▸ hreq, by rw [hk]; simp [viewOf, hnone, hzero], by
      rw [hk]; simp [viewOf, hnone]⟩)
    (fun _ _ h => h.alone) (fun _ _ h => h.admitted) hschedule
  have hmarked := everyState_marked (s := db) (fun i => marks_approve srv (approvals i)) schedule
  refine everyState_mono ?_ (everyState_and hserial hmarked)
  rintro pool ⟨hviews, hmarks⟩ hdone
  exact counted_of_tally ((hviews requestID).2 (hdone.idle 3 requestID) rfl)
    (approved_iff_mem_sharesOf hnone hmarks hdone)

/-! ### Evaluation -/

variable [Fintype ι]

instance decidableInOrder [DecidableEq ι] (srv : Server) (approvals : ι → Approval)
    (requestID : Bytes) (guardianDIDs : List Bytes) (pool : Pool ι DB Reply)
    (e : ι × Option Err) : Decidable (InOrder srv approvals requestID guardianDIDs pool e) :=
  decidable_of_iff' _ (inOrder_iff ..)

instance decidableApproved (srv : Server) (approvals : ι → Approval) (requestID : Bytes)
    (pool : Pool ι DB Reply) : DecidablePred (Approved srv approvals requestID pool) :=
  fun _ => inferInstanceAs (Decidable (∃ _, _ ∧ _ ∧ _))

theorem counted_iff {srv : Server} {approvals : ι → Approval} {pool : Pool ι DB Reply} :
    Counted srv approvals requestID guardianDIDs pool
      ↔ (pool.state.recoveryRequests.find requestID).map RecoveryRequest.sharesCollected
        = some ((guardianDIDs.toFinset.filter (Approved srv approvals requestID pool)).card :
          Int) := by
  have hset : {did | did ∈ guardianDIDs ∧ Approved srv approvals requestID pool did}
      = (guardianDIDs.toFinset.filter (Approved srv approvals requestID pool) : Set Bytes) := by
    simp
  rw [Counted, hset, Set.ncard_coe_finset, Option.map_eq_some_iff]

instance decidableCounted (srv : Server) (approvals : ι → Approval) (requestID : Bytes)
    (guardianDIDs : List Bytes) (pool : Pool ι DB Reply) :
    Decidable (Counted srv approvals requestID guardianDIDs pool) :=
  decidable_of_iff _ counted_iff.symm

instance decidableFinished (pool : Pool ι DB Reply) : Decidable (Finished pool) :=
  inferInstanceAs (Decidable (∀ i, (pool.threads i).result.isSome = true))

end Pools

namespace Sample

def requested : DB :=
  ((saveRecoveryRequest ⟨"q", "s", 0, 0, false⟩ 0).run (fun _ => none)
    (enrolled .empty ["a", "b"])).2

def row : RecoveryRequest := ⟨"q", "s", 0, 0, false⟩

def approval (did : Bytes) : Approval := ⟨env, request did, "q", some "01:00"⟩

def approvals (first second : Bytes) (i : Bool) : Approval :=
  approval (if i then second else first)

def pool (first second : Bytes) : Pool Bool DB Reply :=
  start requested fun i => (approvals first second i).proc server

def serial : List (Bool × Option Err) :=
  [(false, none), (false, none), (false, none), (true, none), (true, none), (true, none),
    (false, none), (true, none)]

def overlapping : List (Bool × Option Err) :=
  [(false, none), (true, none), (false, none), (true, none), (false, none), (true, none),
    (false, none), (true, none)]

def unwritten : List (Bool × Option Err) :=
  [(false, none), (false, none), (false, none), (true, none), (true, none),
    (true, some (.new "database is locked" [])), (false, none), (true, none)]

def guardians : List Bytes := guardiansOf requested row.subjectDID

end Sample

open Sample

theorem counted_serial :
    Counted server (approvals "a" "b") "q" guardians (serial.foldl step (pool "a" "b")) :=
  everyState_last (everyState_counted server (approvals "a" "b")
    requested "q" row (by decide +kernel) rfl (by decide +kernel)
    serial (by decide +kernel)) (by decide +kernel)

/-- An approval by no guardian, two by one, two at the same time, and a count that is not written.
-/
theorem not_counted :
    ¬(Finished (serial.foldl step (pool "a" "c")) → Counted server (approvals "a" "c") "q" guardians
        (serial.foldl step (pool "a" "c")))
    ∧ ¬(Finished (serial.foldl step (pool "a" "a")) →
      Counted server (approvals "a" "a") "q" guardians (serial.foldl step (pool "a" "a")))
    ∧ ¬(Finished (overlapping.foldl step (pool "a" "b")) →
      Counted server (approvals "a" "b") "q" guardians (overlapping.foldl step (pool "a" "b")))
    ∧ ¬(Finished (unwritten.foldl step (pool "a" "b")) →
      Counted server (approvals "a" "b") "q" guardians (unwritten.foldl step (pool "a" "b"))) := by
  decide +kernel

end TptIdentity.Guardian
