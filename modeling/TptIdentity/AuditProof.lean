import TptIdentity.AuditChain

/-!
# Audit proofs

`handleAuditProof` returns at most 1000 rows, next to the hash of a head that they then do not
reach (`auditProof_iff`).
-/

namespace TptIdentity.Auditlog

open Go Store List

structure AuditProof where
  fromSeq : Int
  headSeq : Nat
  headHash : Bytes
  chain : List AuditEvent
deriving DecidableEq

def handleAuditProof (seqStr : Bytes) : Proc DB (Except (Nat × String) AuditProof) :=
  match atoi seqStr with
  | none => return .error (400, "invalid seq")
  | some fromSeq =>
    if fromSeq < 1 then return .error (400, "invalid seq")
    else do
      match ← getAuditHead with
      | .ok head =>
        let limit := head.seq - fromSeq + 1
        if limit ≤ 0 then return .error (404, "seq not found")
        else
          match ← listAuditEvents (if limit > 1000 then 1000 else limit) (fromSeq - 1) with
          | .ok (events, _) => return .ok ⟨fromSeq, head.seq, head.hash, events⟩
          | _ => return .error (500, "internal error")
      | _ => return .error (404, "audit log empty")

structure AuditProof.Reaches (p : AuditProof) : Prop where
  starts : p.chain.head?.map (fun e => (e.seq : Int)) = some p.fromSeq
  linked : ∃ prev, Linked prev p.chain
  ends : p.chain.getLast?.map AuditEvent.hash = some p.headHash

theorem Linked.drop {rows : List AuditEvent} : ∀ {prev : Bytes} (k : Nat), Linked prev rows →
    ∃ prev', Linked prev' (rows.drop k) := by
  induction rows with
  | nil => exact fun k _ => ⟨[], by simp [Linked]⟩
  | cons e rows ih =>
    intro prev k h
    cases k with
    | zero => exact ⟨prev, h⟩
    | succ k => exact ih k h.2

theorem Linked.take {rows : List AuditEvent} : ∀ {prev : Bytes} (k : Nat), Linked prev rows →
    Linked prev (rows.take k) := by
  induction rows with
  | nil => exact fun k _ => by simp [Linked]
  | cons e rows ih =>
    intro prev k h
    cases k with
    | zero => trivial
    | succ k => exact ⟨h.1, ih k h.2⟩

theorem run_handleAuditProof (db : DB) (head : AuditEvent) (seqStr : Bytes) (seq : Nat)
    (hhead : db.auditLog.rows.getLast? = some head) (hstr : atoi seqStr = some (seq : Int))
    (hpos : 1 ≤ seq) (hle : seq ≤ head.seq) :
    (handleAuditProof seqStr).run (fun _ => none) db
      = (.ok ⟨seq, head.seq, head.hash,
          (db.auditLog.rows.drop (seq - 1)).take (min 1000 (head.seq - seq + 1))⟩, db) := by
  have hget : getAuditHead.run (fun _ => none) db = (.ok head, db) := by
    show (found db.auditLog.rows.getLast?, db) = _
    rw [hhead]
    rfl
  have hlimit : (if (head.seq : Int) - seq + 1 > 1000 then 1000 else (head.seq : Int) - seq + 1)
      = ((min 1000 (head.seq - seq + 1) : Nat) : Int) := by
    split <;> omega
  have hlist : ∀ limit : Nat, (listAuditEvents limit ((seq : Int) - 1)).run (fun _ => none) db
      = (.ok ((db.auditLog.rows.drop (seq - 1)).take limit, db.auditLog.rows.length), db) := by
    intro limit
    have hoffset : ((seq : Int) - 1).toNat = seq - 1 := by omega
    show (Res.ok (db.auditLog.page limit ((seq : Int) - 1), db.auditLog.rows.length), db) = _
    rw [AuditLog.page, if_neg (by omega), Int.toNat_natCast, hoffset]
  simp only [handleAuditProof, hstr]
  rw [if_neg (by omega), Proc.run_bind, hget]
  dsimp only
  rw [if_neg (by omega), Proc.run_bind, hlimit, hlist]
  rfl

/-- A proof reaches the head exactly if fewer than 1000 events follow, or the hash there is that of
the head. -/
theorem auditProof_iff (db : DB) (prev : Bytes) (hlinked : Linked prev db.auditLog.rows)
    (hseqs : db.auditLog.rows.map AuditEvent.seq = range' 1 db.auditLog.rows.length)
    (head : AuditEvent) (hhead : db.auditLog.rows.getLast? = some head) (seqStr : Bytes) (seq : Nat)
    (hstr : atoi seqStr = some (seq : Int)) (hpos : 1 ≤ seq) (hle : seq ≤ head.seq) :
    ∃ p : AuditProof, (handleAuditProof seqStr).run (fun _ => none) db = (.ok p, db)
      ∧ p.fromSeq = seq ∧ p.headSeq = head.seq ∧ p.headHash = head.hash
      ∧ (p.Reaches ↔ head.seq < seq + 1000
        ∨ (db.auditLog.rows[seq + 998]?).map AuditEvent.hash = some head.hash) := by
  refine ⟨_, run_handleAuditProof db head seqStr seq hhead hstr hpos hle, rfl, rfl, rfl, ?_⟩
  generalize db.auditLog.rows = rows at hlinked hseqs hhead
  have hnth : ∀ i < rows.length, ∃ e, rows[i]? = some e ∧ e.seq = i + 1 := by
    intro i hi
    have hi' := congrArg (fun l => l[i]?) hseqs
    simp only [getElem?_map, getElem?_range', hi] at hi'
    obtain ⟨e, he, hseq⟩ := Option.map_eq_some_iff.mp hi'
    exact ⟨e, he, by omega⟩
  have hlen : head.seq = rows.length := by
    rw [getLast?_eq_getElem?] at hhead
    obtain ⟨hlt, -⟩ := List.getElem?_eq_some_iff.mp hhead
    obtain ⟨e, he, hseq⟩ := hnth _ hlt
    obtain rfl := Option.some.inj (hhead.symm.trans he)
    omega
  -- the last row of the answer is the head, or the one 999 rows after the first
  have hlast : ((rows.drop (seq - 1)).take (min 1000 (head.seq - seq + 1))).getLast?
      = if head.seq < seq + 1000 then some head else rows[seq + 998]? := by
    rw [getLast?_eq_getElem?, length_take, length_drop, getElem?_take,
      if_pos (by omega), getElem?_drop]
    split
    · rw [← hhead, getLast?_eq_getElem?]
      congr 1
      omega
    · congr 1
      omega
  constructor
  · intro h
    have hends := h.ends
    rw [hlast] at hends
    split at hends
    · next hnear => exact Or.inl hnear
    · exact Or.inr hends
  · intro h
    obtain ⟨prev', hprev'⟩ := hlinked.drop (seq - 1)
    refine ⟨?_, ⟨prev', hprev'.take _⟩, ?_⟩
    · obtain ⟨e, he, hseq⟩ := hnth (seq - 1) (by omega)
      rw [head?_eq_getElem?, getElem?_take, if_pos (by omega), getElem?_drop, add_zero, he]
      simp only [Option.map_some, Option.some.injEq]
      omega
    · rw [hlast]
      split
      · rfl
      · next hfar => exact h.resolve_left hfar

namespace Sample

def longLog (n : Nat) : AuditLog where
  rows := (range n).map fun i => ⟨i + 1, [], [], utoa (i + 1), if i = 0 then [] else utoa i⟩
  sequence := n
  ordered := pairwise_map.mpr (pairwise_lt_range.imp Nat.succ_lt_succ)
  drawn := by
    intro e he
    obtain ⟨i, hi, rfl⟩ := mem_map.mp he
    exact mem_range.mp hi

def db (n : Nat) : DB := { DB.empty with auditLog := longLog n }

end Sample

open Sample

theorem auditProof_short : ∃ p, (handleAuditProof "2").run (fun _ => none) (db 3)
    = (.ok p, db 3) ∧ p.Reaches := by
  obtain ⟨p, hp, -, -, -, hreaches⟩ := auditProof_iff (db 3) [] (by decide) (by decide)
    ⟨3, [], [], utoa 3, utoa 2⟩ (by decide) "2" 2 (by decide) (by decide) (by decide)
  exact ⟨p, hp, hreaches.mpr (Or.inl (by decide))⟩

theorem auditProof_cut : Linked [] (db 1001).auditLog.rows
    ∧ ∃ p, (handleAuditProof "1").run (fun _ => none) (db 1001)
      = (.ok p, db 1001) ∧ p.headHash = "1001"
      ∧ p.chain.getLast?.map AuditEvent.hash = some (str "1000") := by
  have hrun := run_handleAuditProof (db 1001) ⟨1001, [], [], utoa 1001, utoa 1000⟩ "1" 1
    (by decide +kernel) (by decide) (by decide) (by decide)
  exact ⟨by decide +kernel, _, hrun, by decide +kernel, by decide +kernel⟩

end TptIdentity.Auditlog
