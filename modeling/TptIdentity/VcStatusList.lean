import TptIdentity.GoBits
import TptIdentity.VcCredential

/-!
# Package vc: status lists

The live list and the published bytes agree with the set of indices that the operations describe
(`revokedSet_runAll`, `checkStatus_of_inRange`). On negative indices `CheckStatus` accepts or
panics (`safeLookup_iff`). Compression is a parameter.
-/

namespace Go

/-- What a writer makes of a string, and what a reader gives back with the error that ends it. -/
structure Gzip where
  compress : Bytes → Bytes
  reader : Bytes → Res (Bytes × Option Err)

def Gzip.Lossless (gz : Gzip) : Prop := ∀ b, gz.reader (gz.compress b) = .ok (b, none)

/-- `io.ReadAll(io.LimitReader(r, limit))`; an error beyond the limit is not seen. -/
def readLimited (limit : Nat) (r : Bytes × Option Err) : Res Bytes :=
  if r.1.length < limit then
    match r.2 with
    | some e => .err e
    | none => .ok r.1
  else .ok (r.1.take limit)

theorem readLimited_of_le {limit : Nat} {b : Bytes} (h : b.length ≤ limit) :
    readLimited limit (b, none) = .ok b := by
  unfold readLimited
  split
  · rfl
  · rw [List.take_of_length_le h]

end Go

namespace TptIdentity.Vc

open Go Res List

/-! ## The list -/

def statusListMinSize : Int64 := 131072

structure StatusList where
  id : Bytes
  bits : Bytes
  size : Nat
  size_eq : size = 8 * bits.length

def byteLen (size : Int64) : Int64 :=
  ((if size < statusListMinSize then statusListMinSize else size) + 7) / 8

def newStatusList (id : Bytes) (size : Int64) : Res StatusList :=
  if byteLen size < 0 then .panics "runtime error: makeslice: len out of range"
  else .ok {
    id
    bits := replicate (byteLen size).toInt.toNat 0
    size := 8 * (byteLen size).toInt.toNat
    size_eq := congrArg (8 * ·) length_replicate.symm }

namespace StatusList

def checkIndex (s : StatusList) (index : Int64) : Option Err :=
  if index.toInt < 0 ∨ s.size ≤ index.toInt then
    some (.new "status list: index %d out of range (size %d)" [itoa index.toInt, itoa s.size])
  else none

def update (f : Bytes → Nat → Bytes) (hf : ∀ b i, (f b i).length = b.length) (s : StatusList)
    (index : Int64) : Option Err × StatusList :=
  match s.checkIndex index with
  | some e => (some e, s)
  | none => (none, { s with
    bits := f s.bits index.toInt.toNat
    size_eq := s.size_eq.trans (congrArg (8 * ·) (hf _ _).symm) })

def revoke : StatusList → Int64 → Option Err × StatusList := update Bits.set Bits.length_set

def unrevoke : StatusList → Int64 → Option Err × StatusList := update Bits.clear Bits.length_clear

def isRevoked (s : StatusList) (index : Int64) : Res Bool :=
  match s.checkIndex index with
  | some e => .err e
  | none => .ok (Bits.test s.bits index.toInt.toNat)

def encodedList (gz : Gzip) (s : StatusList) : Bytes := encodeB64 (gz.compress s.bits)

end StatusList

def parseEncodedList (gz : Gzip) (encoded : Bytes) : Res Bytes := do
  let compressed ← (decodeB64 encoded).wrapErr "status list: base64 decode: %w" []
  let r ← (gz.reader compressed).wrapErr "status list: gzip open: %w" []
  (readLimited (16 * 2 ^ 20) r).wrapErr "status list: gzip read: %w" []

/-- Division rounds towards zero, `uint(idx) % 8` is of the two's complement: a small negative
index is looked up in the first byte. -/
def checkStatus (bits : Bytes) (status : Option CredentialStatus) : Res Unit :=
  match status with
  | none => .ok ()
  | some status =>
    let idx := status.statusListIndex.toInt
    let byteIdx := idx.tdiv 8
    let bitIdx := (idx % 8).toNat
    if bits.length ≤ byteIdx then
      .err (.new "status list: index %d out of range" [itoa idx])
    else if byteIdx < 0 then .panics "runtime error: index out of range"
    else if (bits.getD byteIdx.toNat 0 &&& Bits.mask bitIdx) ≠ 0 then
      .err (.new "credential is revoked" [])
    else .ok ()

/-! ## Operations -/

inductive Op where
  | revoke (index : Int64)
  | unrevoke (index : Int64)
  deriving DecidableEq

def Op.index : Op → Int64
  | .revoke index => index
  | .unrevoke index => index

def Op.run (s : StatusList) : Op → Option Err × StatusList
  | .revoke index => s.revoke index
  | .unrevoke index => s.unrevoke index

def StatusList.runAll (s : StatusList) (ops : List Op) : StatusList :=
  ops.foldl (fun s op => (op.run s).2) s

def lastOn (ops : List Op) (i : Int64) : Option Op := (ops.filter fun op => op.index = i).getLast?

/-! ## The set of revoked indices -/

namespace StatusList

def InRange (s : StatusList) (i : Int64) : Prop := 0 ≤ i.toInt ∧ i.toInt < s.size

variable {s : StatusList} {i : Int64}

theorem checkIndex_of_inRange (h : s.InRange i) : s.checkIndex i = none := by
  have hcond : ¬ (i.toInt < 0 ∨ (s.size : Int) ≤ i.toInt) := by
    unfold InRange at h
    omega
  exact if_neg hcond

theorem checkIndex_of_not_inRange (h : ¬ s.InRange i) : ∃ e, s.checkIndex i = some e := by
  have hcond : i.toInt < 0 ∨ (s.size : Int) ≤ i.toInt := by
    unfold InRange at h
    omega
  exact ⟨_, if_pos hcond⟩

theorem InRange.toNat_lt (h : s.InRange i) : i.toInt.toNat < 8 * s.bits.length := by
  rw [← s.size_eq]
  unfold InRange at h
  omega

theorem isRevoked_of_inRange (h : s.InRange i) :
    s.isRevoked i = .ok (Bits.test s.bits i.toInt.toNat) := by
  rw [isRevoked, checkIndex_of_inRange h]

theorem isRevoked_of_not_inRange (h : ¬ s.InRange i) : ∃ e, s.isRevoked i = .err e := by
  obtain ⟨e, he⟩ := checkIndex_of_not_inRange h
  exact ⟨e, by rw [isRevoked, he]⟩

def revokedSet (s : StatusList) : Set Int64 := {i | s.isRevoked i = .ok true}

theorem mem_revokedSet : i ∈ s.revokedSet ↔ s.InRange i ∧ i.toInt.toNat ∈ Bits.members s.bits := by
  by_cases h : s.InRange i
  · have hrev : i ∈ s.revokedSet ↔ ok (Bits.test s.bits i.toInt.toNat) = .ok true := by
      rw [← isRevoked_of_inRange h]
      rfl
    rw [hrev, ok.injEq, Bits.mem_members]
    exact (and_iff_right h).symm
  · obtain ⟨e, he⟩ := isRevoked_of_not_inRange h
    refine ⟨fun hi => ?_, fun hi => absurd hi.1 h⟩
    exact absurd (he.symm.trans hi) (err_ne_ok _ _)

theorem isRevoked_eq (h : s.InRange i) [Decidable (i ∈ s.revokedSet)] :
    s.isRevoked i = .ok (decide (i ∈ s.revokedSet)) := by
  have hmem : i ∈ s.revokedSet ↔ Bits.test s.bits i.toInt.toNat :=
    mem_revokedSet.trans (and_iff_right h)
  rw [isRevoked_of_inRange h, ok.injEq, Bool.eq_iff_iff, decide_eq_true_iff, hmem]

section Update

variable {f : Bytes → Nat → Bytes} (hf : ∀ b i, (f b i).length = b.length) {s : StatusList}
  {i : Int64}

theorem update_of_not_inRange (h : ¬ s.InRange i) : ∃ e, s.update f hf i = (some e, s) := by
  obtain ⟨e, he⟩ := checkIndex_of_not_inRange h
  exact ⟨e, by rw [update, he]⟩

theorem update_of_inRange (h : s.InRange i) :
    (s.update f hf i).1 = none ∧ (s.update f hf i).2.bits = f s.bits i.toInt.toNat := by
  rw [update, checkIndex_of_inRange h]
  exact ⟨rfl, rfl⟩

theorem size_update : (s.update f hf i).2.size = s.size := by
  unfold update
  cases s.checkIndex i <;> rfl

theorem id_update : (s.update f hf i).2.id = s.id := by
  unfold update
  cases s.checkIndex i <;> rfl

end Update

end StatusList

def Op.apply (range A : Set Int64) : Op → Set Int64
  | .revoke i => A ∪ {i} ∩ range
  | .unrevoke i => A \ ({i} ∩ range)

variable {s : StatusList} {op : Op} {i : Int64} {bits : Bytes}

theorem Op.run_of_not_inRange (h : ¬ s.InRange op.index) : ∃ e, op.run s = (some e, s) := by
  cases op with
  | revoke i => exact StatusList.update_of_not_inRange Bits.length_set h
  | unrevoke i => exact StatusList.update_of_not_inRange Bits.length_clear h

theorem Op.run_of_inRange (h : s.InRange op.index) : (op.run s).1 = none := by
  cases op with
  | revoke i => exact (StatusList.update_of_inRange Bits.length_set h).1
  | unrevoke i => exact (StatusList.update_of_inRange Bits.length_clear h).1

theorem Op.size_run (s : StatusList) (op : Op) : (op.run s).2.size = s.size := by
  cases op with
  | revoke i => exact StatusList.size_update Bits.length_set
  | unrevoke i => exact StatusList.size_update Bits.length_clear

theorem Op.id_run (s : StatusList) (op : Op) : (op.run s).2.id = s.id := by
  cases op with
  | revoke i => exact StatusList.id_update Bits.length_set
  | unrevoke i => exact StatusList.id_update Bits.length_clear

theorem Op.inRange_run : (op.run s).2.InRange i ↔ s.InRange i := by
  rw [StatusList.InRange, op.size_run, StatusList.InRange]

theorem toNat_inj_of_nonneg {j : Int64} (hi : 0 ≤ i.toInt) (hj : 0 ≤ j.toInt) :
    i.toInt.toNat = j.toInt.toNat ↔ i = j := by
  rw [← Int64.toInt_inj]
  omega

theorem Op.revokedSet_run (s : StatusList) (op : Op) :
    (op.run s).2.revokedSet = op.apply {i | s.InRange i} s.revokedSet := by
  by_cases h : s.InRange op.index
  · ext j
    rw [StatusList.mem_revokedSet, op.inRange_run]
    cases op with
    | revoke i =>
      have hi : s.InRange i := h
      have hbits : (run s (.revoke i)).2.bits = Bits.set s.bits i.toInt.toNat :=
        (StatusList.update_of_inRange Bits.length_set hi).2
      rw [hbits, Bits.members_set hi.toNat_lt, Set.mem_insert_iff]
      constructor
      · rintro ⟨hj, heq | hmem⟩
        · exact .inr ⟨(toNat_inj_of_nonneg hj.1 hi.1).mp heq, hj⟩
        · exact .inl (StatusList.mem_revokedSet.mpr ⟨hj, hmem⟩)
      · rintro (hmem | ⟨rfl, hj⟩)
        · obtain ⟨hj, hmem⟩ := StatusList.mem_revokedSet.mp hmem
          exact ⟨hj, .inr hmem⟩
        · exact ⟨hj, .inl rfl⟩
    | unrevoke i =>
      have hi : s.InRange i := h
      have hbits : (run s (.unrevoke i)).2.bits = Bits.clear s.bits i.toInt.toNat :=
        (StatusList.update_of_inRange Bits.length_clear hi).2
      rw [hbits, Bits.members_clear hi.toNat_lt, Set.mem_sdiff, Set.mem_singleton_iff]
      constructor
      · rintro ⟨hj, hmem, hne⟩
        refine ⟨StatusList.mem_revokedSet.mpr ⟨hj, hmem⟩, fun hij => hne ?_⟩
        rw [hij.1]
      · rintro ⟨hmem, hne⟩
        obtain ⟨hj, hmem⟩ := StatusList.mem_revokedSet.mp hmem
        exact ⟨hj, hmem, fun heq => hne ⟨(toNat_inj_of_nonneg hj.1 hi.1).mp heq, hj⟩⟩
  · have hempty : ({op.index} : Set Int64) ∩ {i | s.InRange i} = ∅ :=
      Set.singleton_inter_eq_empty.mpr h
    obtain ⟨e, he⟩ := op.run_of_not_inRange h
    rw [he]
    cases op with
    | revoke i => exact (Set.union_empty _).symm.trans (congrArg (s.revokedSet ∪ ·) hempty.symm)
    | unrevoke i => exact Set.sdiff_empty.symm.trans (congrArg (s.revokedSet \ ·) hempty.symm)

theorem Op.isRevoked_run_of_ne {j : Int64} (h : j ≠ op.index) :
    (op.run s).2.isRevoked j = s.isRevoked j := by
  by_cases hj : s.InRange j
  · classical
    rw [StatusList.isRevoked_eq (op.inRange_run.mpr hj), StatusList.isRevoked_eq hj, ok.injEq,
      decide_eq_decide, op.revokedSet_run]
    cases op with
    | revoke i => exact or_iff_left fun hji => h hji.1
    | unrevoke i => exact and_iff_left fun hji => h hji.1
  · have hsize := op.size_run s
    have hcheck : (op.run s).2.checkIndex j = s.checkIndex j := by
      rw [StatusList.checkIndex, hsize, StatusList.checkIndex]
    obtain ⟨e, he⟩ := StatusList.checkIndex_of_not_inRange hj
    rw [StatusList.isRevoked, StatusList.isRevoked, hcheck, he]

theorem StatusList.revokedSet_runAll (s : StatusList) (ops : List Op) :
    (s.runAll ops).revokedSet = ops.foldl (Op.apply {i | s.InRange i}) s.revokedSet := by
  induction ops generalizing s with
  | nil => rfl
  | cons op ops ih =>
    have hrange : {i | (op.run s).2.InRange i} = {i | s.InRange i} := by
      ext i
      exact op.inRange_run
    rw [StatusList.runAll, foldl_cons, foldl_cons]
    rw [← op.revokedSet_run s, ← hrange]
    exact ih (op.run s).2

theorem mem_foldl_apply {range A : Set Int64} (hi : i ∈ range) (ops : List Op) :
    i ∈ ops.foldl (Op.apply range) A ↔
      lastOn ops i = some (.revoke i) ∨ lastOn ops i = none ∧ i ∈ A := by
  induction ops using reverseRecOn with
  | nil => simp [lastOn]
  | append_singleton ops op ih =>
    by_cases hop : op.index = i
    · have hlast : lastOn (ops ++ [op]) i = some op := by simp [lastOn, hop]
      rw [hlast]
      cases op with
      | revoke j =>
        obtain rfl : j = i := hop
        simp [Op.apply, hi]
      | unrevoke j =>
        obtain rfl : j = i := hop
        simp [Op.apply, hi]
    · have hlast : lastOn (ops ++ [op]) i = lastOn ops i := by simp [lastOn, hop]
      rw [hlast, ← ih]
      cases op with
      | revoke j =>
        have hne : i ≠ j := fun hij => hop hij.symm
        simp [Op.apply, hne]
      | unrevoke j =>
        have hne : i ≠ j := fun hij => hop hij.symm
        simp [Op.apply, hne]

theorem StatusList.size_runAll (s : StatusList) (ops : List Op) : (s.runAll ops).size = s.size :=
  foldlRecOn ops (fun s op => (Op.run s op).2) (motive := fun s' => s'.size = s.size) rfl
    fun s' hs' op _ => (op.size_run s').trans hs'

theorem revokedSet_newStatusList {id : Bytes} {size : Int64}
    (h : newStatusList id size = .ok s) : s.revokedSet = ∅ := by
  unfold newStatusList at h
  split at h
  · exact absurd h (panics_ne_ok _ _)
  · cases h
    ext i
    rw [StatusList.mem_revokedSet, Bits.members_replicate]
    simp

theorem exists_newStatusList (id : Bytes) :
    ∃ s, newStatusList id 0 = .ok s ∧ s.id = id ∧ s.size = 131072 := by
  refine ⟨_, if_neg (by decide), rfl, ?_⟩
  rfl

/-! ## The published list -/

theorem parseEncodedList_encodedList {gz : Gzip} (hgz : gz.Lossless)
    (h : s.bits.length ≤ 16 * 2 ^ 20) : parseEncodedList gz (s.encodedList gz) = .ok s.bits := by
  simp only [parseEncodedList, StatusList.encodedList, decodeB64_encodeB64, wrapErr_ok,
    ok_bind, hgz s.bits, readLimited_of_le h]

variable {status : CredentialStatus}

theorem checkStatus_of_inRange (h : s.InRange status.statusListIndex) :
    checkStatus s.bits (some status) =
      if s.isRevoked status.statusListIndex = .ok true then .err (.new "credential is revoked" [])
      else .ok () := by
  obtain ⟨n, hn⟩ := Int.eq_ofNat_of_zero_le h.1
  have hlt : n < 8 * s.bits.length := by
    have := h.toNat_lt
    omega
  have hdiv : (n : Int).tdiv 8 = (n / 8 : Nat) := rfl
  have hmod : (((n : Int) % 8).toNat) = n % 8 := by omega
  have hmask : Bits.mask (n % 8) = Bits.mask n := by simp [Bits.mask]
  have hlen : ¬ ((s.bits.length : Int) ≤ (n / 8 : Nat)) := by omega
  have hneg : ¬ (((n / 8 : Nat) : Int) < 0) := by omega
  simp only [StatusList.isRevoked_of_inRange h, checkStatus, hn, hdiv, hmod, hmask, if_neg hlen,
    if_neg hneg, Int.toNat_natCast, ok.injEq, Bits.test, bne_iff_ne]

theorem checkStatus_of_size_le (h : s.size ≤ status.statusListIndex.toInt) :
    checkStatus s.bits (some status) =
      .err (.new "status list: index %d out of range" [itoa status.statusListIndex.toInt]) := by
  have hlen : (s.bits.length : Int) ≤ status.statusListIndex.toInt.tdiv 8 := by
    have hsize := s.size_eq
    rw [Int.tdiv_eq_ediv_of_nonneg (by omega)]
    omega
  exact if_pos hlen

/-- The bitstring, live and published, is the set of the revoked indices. -/
theorem statusList_refines (gz : Gzip) (hgz : gz.Lossless) (id : Bytes) (size : Int64)
    (s₀ : StatusList) (hnew : newStatusList id size = .ok s₀)
    (hlen : s₀.bits.length ≤ 16 * 2 ^ 20) (ops : List Op) :
    let s := s₀.runAll ops
    (∀ i, s₀.InRange i → s.isRevoked i = .ok (decide (lastOn ops i = some (.revoke i)))) ∧
      (∀ i, ¬ s₀.InRange i → ∃ e, s.isRevoked i = .err e) ∧
      (∀ op : Op, ¬ s₀.InRange op.index → ∃ e, op.run s = (some e, s)) ∧
      (∀ op : Op, s₀.InRange op.index → (op.run s).1 = none) ∧
      (∀ op : Op, ∀ j ≠ op.index, (op.run s).2.isRevoked j = s.isRevoked j) ∧
      ∃ bits, parseEncodedList gz (s.encodedList gz) = .ok bits ∧
        ∀ status : CredentialStatus, (s₀.InRange status.statusListIndex →
            (checkStatus bits (some status) ≠ .ok () ↔
              s.isRevoked status.statusListIndex = .ok true)) ∧
          (s₀.size ≤ status.statusListIndex.toInt →
            ∃ e, checkStatus bits (some status) = .err e) := by
  intro s
  have hsize : s.size = s₀.size := s₀.size_runAll ops
  have hrange : ∀ {i}, s.InRange i ↔ s₀.InRange i := by
    intro i
    rw [StatusList.InRange, hsize, StatusList.InRange]
  have hbits : s.bits.length ≤ 16 * 2 ^ 20 := by
    have h := s.size_eq
    have h₀ := s₀.size_eq
    omega
  have hset : ∀ {i}, s₀.InRange i → (i ∈ s.revokedSet ↔ lastOn ops i = some (.revoke i)) := by
    intro i hi
    rw [s₀.revokedSet_runAll, mem_foldl_apply hi, revokedSet_newStatusList hnew]
    simp
  refine ⟨fun i hi => ?_, fun i hi => ?_, fun op hop => ?_, fun op hop => ?_, fun op j hj => ?_,
    s.bits, parseEncodedList_encodedList hgz hbits, fun status => ⟨fun hi => ?_, fun hi => ?_⟩⟩
  · classical
    rw [StatusList.isRevoked_eq (hrange.mpr hi), ok.injEq, decide_eq_decide]
    exact hset hi
  · exact StatusList.isRevoked_of_not_inRange fun h => hi (hrange.mp h)
  · exact op.run_of_not_inRange fun h => hop (hrange.mp h)
  · exact op.run_of_inRange (hrange.mpr hop)
  · exact op.isRevoked_run_of_ne hj
  · rw [checkStatus_of_inRange (hrange.mpr hi)]
    split
    · next hset => exact iff_of_true (err_ne_ok _ _) hset
    · next hclear => exact iff_of_false (not_not.mpr rfl) hclear
  · exact ⟨_, checkStatus_of_size_le (hsize ▸ hi)⟩

def storedGzip : Gzip := ⟨fun b => b, fun b => .ok (b, none)⟩

theorem statusList_revoke_three :
    ∃ s₀ : StatusList, newStatusList "l" 0 = .ok s₀ ∧
      (s₀.runAll [.revoke 3, .revoke (-1), .unrevoke 4]).isRevoked 3 = .ok true := by
  obtain ⟨s₀, hnew, -, hsize⟩ := exists_newStatusList "l"
  have hlen : s₀.bits.length ≤ 16 * 2 ^ 20 := by
    have h := s₀.size_eq
    omega
  have hin : s₀.InRange 3 := by
    rw [StatusList.InRange, hsize]
    decide
  exact ⟨s₀, hnew, (statusList_refines storedGzip (fun _ => rfl) "l" 0 s₀ hnew hlen
    [.revoke 3, .revoke (-1), .unrevoke 4]).1 3 hin⟩

/-! ## Any index -/

structure SafeLookup (bits : Bytes) (status : CredentialStatus) : Prop where
  returns : ∀ reason, checkStatus bits (some status) ≠ .panics reason
  accepts : checkStatus bits (some status) = .ok () → 0 ≤ status.statusListIndex.toInt ∧
    status.statusListIndex.toInt < 8 * bits.length ∧
    Bits.test bits status.statusListIndex.toInt.toNat = false

theorem safeLookup_of_err {e : Err} (h : checkStatus bits (some status) = .err e) :
    SafeLookup bits status := by
  refine ⟨fun reason hpanics => ?_, fun hok => ?_⟩
  · rw [h] at hpanics
    cases hpanics
  · rw [h] at hok
    cases hok

theorem safeLookup_of_nonneg (h : 0 ≤ status.statusListIndex.toInt) : SafeLookup bits status := by
  -- the look-up is that of a list with these bits
  let s : StatusList := ⟨[], bits, 8 * bits.length, rfl⟩
  by_cases hrange : s.InRange status.statusListIndex
  · have hcheck : checkStatus bits (some status) = _ := checkStatus_of_inRange hrange
    rw [StatusList.isRevoked_of_inRange hrange] at hcheck
    refine ⟨fun reason hpanics => ?_, fun hok => ⟨h, ?_, ?_⟩⟩
    · rw [hcheck] at hpanics
      split at hpanics
      · cases hpanics
      · cases hpanics
    · exact_mod_cast hrange.2
    · rw [hcheck] at hok
      split at hok
      · cases hok
      · next hclear =>
        exact Bool.eq_false_of_not_eq_true fun htest => hclear (congrArg ok htest)
  · have hsize : s.size ≤ status.statusListIndex.toInt := by
      by_contra hlt
      exact hrange ⟨h, Int.not_le.mp hlt⟩
    exact safeLookup_of_err (checkStatus_of_size_le (s := s) hsize)

theorem tdiv_eight_of_neg {i : Int} (h : i < 0) : i.tdiv 8 = -(-i / 8) := by
  rw [← Int.tdiv_eq_ediv_of_nonneg (by omega), Int.neg_tdiv, neg_neg]

theorem checkStatus_of_small (hneg : status.statusListIndex.toInt < 0)
    (hsmall : -8 < status.statusListIndex.toInt) (hbits : bits ≠ []) :
    checkStatus bits (some status) =
      if Bits.test bits (status.statusListIndex.toInt % 8).toNat = true then
        .err (.new "credential is revoked" [])
      else .ok () := by
  have hlen := length_pos_of_ne_nil hbits
  have hdiv : status.statusListIndex.toInt.tdiv 8 = 0 := by
    rw [tdiv_eight_of_neg hneg]
    omega
  have hbyte : (status.statusListIndex.toInt % 8).toNat / 8 = 0 := by omega
  simp only [checkStatus, hdiv, Bits.test, hbyte, bne_iff_ne]
  rw [if_neg (by omega), if_neg (by omega)]
  rfl

/-- A lookup is safe exactly if the index is not negative, or above -8 and refused for another
reason. -/
theorem safeLookup_iff (bits : Bytes) (status : CredentialStatus) :
    SafeLookup bits status ↔ 0 ≤ status.statusListIndex.toInt ∨ -8 < status.statusListIndex.toInt ∧
        (bits = [] ∨ Bits.test bits (status.statusListIndex.toInt % 8).toNat = true) := by
  by_cases hneg : 0 ≤ status.statusListIndex.toInt
  · exact iff_of_true (safeLookup_of_nonneg hneg) (.inl hneg)
  have hneg' := Int.not_le.mp hneg
  by_cases hsmall : -8 < status.statusListIndex.toInt
  · by_cases hbits : bits = []
    · have hdiv : status.statusListIndex.toInt.tdiv 8 = 0 := by
        rw [tdiv_eight_of_neg hneg']
        omega
      have hcheck : checkStatus bits (some status) = .err _ := if_pos (by simp [hbits, hdiv])
      exact iff_of_true (safeLookup_of_err hcheck) (.inr ⟨hsmall, .inl hbits⟩)
    · have hcheck := checkStatus_of_small hneg' hsmall hbits
      by_cases htest : Bits.test bits (status.statusListIndex.toInt % 8).toNat = true
      · rw [if_pos htest] at hcheck
        exact iff_of_true (safeLookup_of_err hcheck) (.inr ⟨hsmall, .inr htest⟩)
      · rw [if_neg htest] at hcheck
        refine iff_of_false (fun h => hneg (h.accepts hcheck).1) ?_
        rintro (h | ⟨-, h | h⟩)
        · exact hneg h
        · exact hbits h
        · exact htest h
  · -- the quotient is negative
    have hdiv : status.statusListIndex.toInt.tdiv 8 < 0 := by
      rw [tdiv_eight_of_neg hneg']
      omega
    have hcheck : checkStatus bits (some status) = .panics "runtime error: index out of range" := by
      simp only [checkStatus]
      rw [if_neg (by omega), if_pos hdiv]
    refine iff_of_false (fun h => h.returns _ hcheck) ?_
    rintro (h | ⟨h, -⟩)
    · exact hneg h
    · exact hsmall h

theorem lookup_negative_index :
    checkStatus [0] (some ⟨[], [], [], -1, []⟩) = .ok () ∧
      checkStatus [0] (some ⟨[], [], [], -8, []⟩)
        = .panics "runtime error: index out of range" := by
  decide

end TptIdentity.Vc
