import TptIdentity.ConsentModel

/-!
# Stored receipts

The signed payload of a receipt contains its expiry, for which the store has no column. A
receipt that is read back has its payload exactly when it was issued without one
(`receiptPayload_iff`).
-/

namespace TptIdentity.Consent

open Go Store Oidc List

def saveAll (db : DB) (saves : List (Receipt × Faults)) : DB :=
  saves.foldl (fun db save => ((saveReceipt save.1).run save.2 db).2) db

def Receipt.Verifies (sha512 : Bytes → Bytes) (E : Ed25519) (pub : Bytes) (r : Receipt) : Prop :=
  ∃ sig, r.signature = encodeB64 sig
    ∧ Tptcrypto.verifyJSON sha512 E pub (stringMapValue (receiptPayload r)) sig = .ok ()

variable {r : Receipt} {id : Bytes} {row : ReceiptRow}

section Save

variable {r : Receipt} {faults : Faults} {db : DB}

theorem run_saveReceipt (r : Receipt) (faults : Faults) (db : DB) :
    (faults 0 = none ∧ (saveReceipt r).run faults db
        = ((db.consentReceipts.insert (.ofReceipt r)).1,
          { db with consentReceipts := (db.consentReceipts.insert (.ofReceipt r)).2 }))
      ∨ ∃ e, faults 0 = some e ∧ (saveReceipt r).run faults db = (.err e, db) := by
  rw [saveReceipt, Proc.run_query]
  cases faults 0 with
  | none => exact Or.inl ⟨rfl, rfl⟩
  | some e => exact Or.inr ⟨e, rfl, rfl⟩

theorem find_saveReceipt (h : ((saveReceipt r).run faults db).1 = .ok ()) :
    ((saveReceipt r).run faults db).2.consentReceipts.find r.id = some (.ofReceipt r) := by
  rcases run_saveReceipt r faults db with ⟨-, hrun⟩ | ⟨e, -, hrun⟩
  · rw [hrun] at h ⊢
    exact Table.find_insert h
  · rw [hrun] at h
    cases h

theorem find_saveReceipt_of_find (h : db.consentReceipts.find id = some row) :
    ((saveReceipt r).run faults db).2.consentReceipts.find id = some row := by
  rcases run_saveReceipt r faults db with ⟨-, hrun⟩ | ⟨e, -, hrun⟩
  · rw [hrun]
    exact Table.find_insert_of_find h _
  · rw [hrun]
    exact h

theorem find_saveAll {saves : List (Receipt × Faults)} {db : DB}
    (h : db.consentReceipts.find id = some row) :
    (saveAll db saves).consentReceipts.find id = some row :=
  List.foldlRecOn (motive := fun db : DB => db.consentReceipts.find id = some row) saves _ h
    fun _ hdb _ _ => find_saveReceipt_of_find hdb

end Save

theorem mem_receiptsOf {db : DB} (row : ReceiptRow)
    (h : db.consentReceipts.find row.id = some row) :
    r ∈ db.receiptsOf row.subjectDID ∧ r.id = row.id ↔ r = row.scan := by
  simp only [DB.receiptsOf, mem_map, mem_insertionSort, mem_filter, decide_eq_true_eq]
  constructor
  · rintro ⟨⟨row', ⟨hrow', -⟩, rfl⟩, hid⟩
    have hfind := Table.mem_rows_iff.mp hrow'
    rw [show row'.id = row.id from hid, h] at hfind
    rw [Option.some.inj hfind]
  · rintro rfl
    exact ⟨⟨row, ⟨Table.mem_rows_iff.mpr h, rfl⟩, rfl⟩, rfl⟩

theorem get_expiresAt_receiptPayload (r : Receipt) :
    (receiptPayload r).get "expiresAt" = r.expiresAt.map (Time.rfc3339 false) := by
  unfold receiptPayload
  cases r.expiresAt with
  | none =>
    refine Map.get_setAll_of_not_mem ?_
    simp only [map_cons, map_nil]
    decide +kernel
  | some expiresAt => exact (Map.get_set _ _ _ _).trans (if_pos rfl)

theorem receiptPayload_scan (hutc : r.accessedAt.offset = 0) :
    receiptPayload (ReceiptRow.ofReceipt r).scan = receiptPayload r ↔ r.expiresAt = none := by
  constructor
  · intro h
    have hget := congrArg (fun m => m.get "expiresAt") h
    simp only [get_expiresAt_receiptPayload] at hget
    cases hexp : r.expiresAt with
    | none => rfl
    | some expiresAt =>
      rw [hexp] at hget
      cases hget
  · intro hexp
    have htime : Time.utc r.accessedAt.nanos = r.accessedAt := congrArg (Time.mk _) hutc.symm
    simp only [receiptPayload, ReceiptRow.scan, ReceiptRow.ofReceipt, hexp, htime]

section Issued

variable {sha512 : Bytes → Bytes} {E : Ed25519} {env : Env} {opts : IssueOptions} {r : Receipt}

theorem issue_eq_ok (h : issue sha512 E env opts = .ok r) :
    r.accessedAt.offset = 0 ∧ r.expiresAt = opts.expiresAt
      ∧ ∃ sig, r.signature = encodeB64 sig
        ∧ Tptcrypto.signJSON sha512 E opts.signerKey (stringMapValue (receiptPayload r))
          = .ok sig := by
  obtain ⟨uuid, -, h⟩ := Res.bind_eq_ok.mp h
  obtain ⟨sig, hsig, h⟩ := Res.bind_eq_ok.mp h
  obtain rfl := Res.ok.inj h
  exact ⟨rfl, rfl, sig, rfl, Res.wrapErr_eq_ok.mp hsig⟩

/-- A receipt is read back with the payload that was signed exactly if it has no expiry. -/
theorem receiptPayload_iff (sha512 : Bytes → Bytes) (E : Ed25519) (env : Env) (opts : IssueOptions)
    (r : Receipt) (hissue : issue sha512 E env opts = .ok r) (faults : Faults) (db : DB)
    (hsave : ((saveReceipt r).run faults db).1 = .ok ())
    (saves : List (Receipt × Faults)) :
    ∃ listed r', ((listReceipts r.subjectDID).run (fun _ => none)
        (saveAll ((saveReceipt r).run faults db).2 saves)).1 = .ok listed
      ∧ (∀ r'', r'' ∈ listed ∧ r''.id = r.id ↔ r'' = r')
      ∧ (receiptPayload r' = receiptPayload r ↔ opts.expiresAt = none)
      ∧ (opts.expiresAt = none → ∀ pub, E.KeyPair opts.signerKey pub →
        pub.length = Ed25519.publicKeySize → r'.Verifies sha512 E pub) := by
  obtain ⟨hutc, hexp, sig, hsignature, hsig⟩ := issue_eq_ok hissue
  have hiff := receiptPayload_scan hutc
  rw [hexp] at hiff
  have hfind : (saveAll ((saveReceipt r).run faults db).2 saves).consentReceipts.find r.id
      = some (.ofReceipt r) := find_saveAll (find_saveReceipt hsave)
  refine ⟨_, (ReceiptRow.ofReceipt r).scan, rfl,
    fun r'' => mem_receiptsOf (.ofReceipt r) hfind, hiff, ?_⟩
  intro hnone pub hpair hpub
  refine ⟨sig, hsignature, ?_⟩
  rw [hiff.mpr hnone]
  exact Tptcrypto.verifyJSON_of_signJSON hpair hpub hsig

end Issued

namespace Sample

def crypto : Crypto := .standIn

def env : Env := ⟨Rand.of fun _ i => UInt8.ofNat i, fun _ => 0⟩

def tomorrow : Time := .utc 86400000000000

def opts (expiresAt : Option Time) : IssueOptions :=
  ⟨"did:key:a", "did:key:b", "healthcare.gp-records", [], legalBasisConsent, expiresAt,
    List.replicate 64 1, "did:key:p#1"⟩

def receipt (expiresAt : Option Time) : Receipt :=
  (issue crypto.sha256 crypto.ed25519 env (opts expiresAt)).getD
    ⟨[], [], [], [], .utc 0, [], [], none, none, [], []⟩

def listed (expiresAt : Option Time) : List Receipt :=
  ((listReceipts "did:key:a").run (fun _ => none)
    ((saveReceipt (receipt expiresAt)).run (fun _ => none) DB.empty).2).1.getD []

end Sample

theorem receiptPayload_expiring :
    issue Sample.crypto.sha256 Sample.crypto.ed25519 Sample.env (Sample.opts (some Sample.tomorrow))
        = .ok (Sample.receipt (some Sample.tomorrow))
      ∧ (Sample.listed (some Sample.tomorrow)).map Receipt.id
        = [(Sample.receipt (some Sample.tomorrow)).id]
      ∧ (Sample.listed (some Sample.tomorrow)).map (fun r => (receiptPayload r).entries)
        ≠ [(receiptPayload (Sample.receipt (some Sample.tomorrow))).entries] := by
  decide +kernel

theorem verifies_unexpiring :
    ∃ r', (∀ r'', r'' ∈ Sample.listed none ∧ r''.id = (Sample.receipt none).id ↔ r'' = r')
      ∧ r'.Verifies Sample.crypto.sha256 Sample.crypto.ed25519 (List.replicate 32 1) := by
  obtain ⟨listed, r', hlisted, hread, -, hverifies⟩ := receiptPayload_iff Sample.crypto.sha256
    Sample.crypto.ed25519 Sample.env (Sample.opts none) (Sample.receipt none) (by decide +kernel)
    (fun _ => none) DB.empty (by decide +kernel) []
  obtain rfl : Sample.listed none = listed := congrArg (Res.getD []) hlisted
  refine ⟨r', hread, hverifies rfl _ ?_ rfl⟩
  intro msg
  show decide ((List.replicate 64 (1 : UInt8)).take 32 = List.replicate 32 1) = true
  decide +kernel

end TptIdentity.Consent
