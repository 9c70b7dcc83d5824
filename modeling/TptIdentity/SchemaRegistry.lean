import TptIdentity.GoDecimal
import TptIdentity.GoMap
import TptIdentity.GoStrings

/-!
# Package schema: the registry

The global `schemas` map, the base and the versioned ID of a schema, and the categories. Any
suffix that `Atoi` reads is taken for a version (`getSchema_registerAll`).
-/

namespace TptIdentity

open Go List

structure ClaimDefinition where
  name : Bytes
  type : Bytes
  required : Bool
deriving DecidableEq, Repr

structure Schema where
  id : Bytes
  version : Int
  categoryID : Bytes
  extraSensitive : Bool
  claims : List ClaimDefinition
deriving DecidableEq, Repr

structure Category where
  id : Bytes
deriving DecidableEq, Repr

namespace Schema

abbrev Registry := Map Schema

abbrev Categories := Map Category

variable {suffix : Bytes} {n : Int} (schemas : Registry)

def versionedID (s : Schema) : Bytes :=
  let v := if s.version ≤ 0 then 1 else s.version
  s.id ++ "-v" ++ itoa v

def baseID (id : Bytes) : Bytes :=
  match lastIndex id "-v" with
  | some idx =>
    if 0 < idx ∧ (atoi (id.drop (idx + 2))).isSome then id.take idx else id
  | none => id

def getSchema (id : Bytes) : Res Schema :=
  match schemas.get id with
  | some s => .ok s
  | none =>
    let base := baseID id
    match if base ≠ id then schemas.get base else none with
    | some s => .ok s
    | none => .err (.new "schema: %q not found" [id])

def getCategory (categories : Categories) (id : Bytes) : Res Category :=
  match categories.get id with
  | some c => .ok c
  | none => .err (.new "schema: category %q not found" [id])

def registerSchema (s : Schema) : Res Registry :=
  if (schemas.get s.id).isSome then .panics "schema: already registered"
  else .ok (schemas.set s.id s)

/-! ## Resolution -/

/-- The registry after a sequence of `RegisterSchema` calls; one that panics changes nothing. -/
def registerAll (l : List Schema) : Registry :=
  l.foldl (fun schemas s => (registerSchema schemas s).getD schemas) .empty

variable {l : List Schema} {s : Schema} {id : Bytes}

theorem get_registerAll (h : (registerAll l).get id = some s) : s.id = id ∧ s ∈ l := by
  induction l using List.reverseRecOn with
  | nil => cases h
  | append_singleton l s' ih =>
    rw [registerAll, foldl_concat] at h
    change ((registerSchema (registerAll l) s').getD (registerAll l)).get id = some s at h
    have hkept : (registerAll l).get id = some s → s.id = id ∧ s ∈ l ++ [s'] := by
      intro h
      obtain ⟨hid, hmem⟩ := ih h
      exact ⟨hid, mem_append_left _ hmem⟩
    by_cases htaken : ((registerAll l).get s'.id).isSome
    · rw [registerSchema, if_pos htaken] at h
      exact hkept h
    · rw [registerSchema, if_neg htaken, Res.getD_ok, Map.get_set] at h
      split at h
      · next heq =>
        obtain rfl := Option.some.inj h
        exact ⟨heq.symm, by simp⟩
      · exact hkept h

theorem append_version_ne (id suffix : Bytes) : id ++ (str "-v" ++ suffix) ≠ id := by
  intro h
  have hlen := congrArg List.length h
  have hv : (str "-v").length = 2 := rfl
  rw [length_append, length_append, hv] at hlen
  omega

theorem lastIndex_version (id : Bytes) (h : atoi suffix = some n) :
    lastIndex (id ++ ("-v" ++ suffix)) "-v" = some id.length := by
  have hv : 118 ∉ suffix := by
    obtain ⟨digits, -, hdigits, -, -, hs⟩ := atoi_eq_some.mp h
    have hno : 118 ∉ digits := fun hmem => absurd (hdigits 118 hmem) (by decide)
    rcases hs with ⟨rfl, -⟩ | ⟨rfl, -⟩ | ⟨rfl, -⟩ <;> simp [hno]
  refine lastIndex_append id fun j hpre => ?_
  cases j with
  | zero => exact absurd (List.cons_prefix_cons.mp hpre).1 (by decide)
  | succ j =>
    have hmem : 118 ∈ suffix.drop j := hpre.subset (by decide)
    exact hv (mem_of_mem_drop hmem)

theorem baseID_append (hid : id ≠ []) (h : atoi suffix = some n) :
    baseID (id ++ ("-v" ++ suffix)) = id := by
  have hdrop : (id ++ ("-v" ++ suffix)).drop (id.length + 2) = suffix :=
    drop_length_add_append ..
  simp only [baseID, lastIndex_version id h, hdrop]
  rw [if_pos ⟨List.length_pos_iff.mpr hid, by rw [h]; rfl⟩, take_left]

theorem eq_of_baseID_ne (h : baseID id ≠ id) :
    baseID id ≠ [] ∧ ∃ suffix n, id = baseID id ++ ("-v" ++ suffix)
      ∧ atoi suffix = some n := by
  unfold baseID at h ⊢
  cases hlast : lastIndex id "-v" with
  | none => simp [hlast] at h
  | some idx =>
    simp only [hlast] at h ⊢
    split at h
    · next hcond =>
      obtain ⟨n, hn⟩ := Option.isSome_iff_exists.mp hcond.2
      have heq := lastIndex_eq_some hlast
      rw [if_pos hcond]
      refine ⟨?_, _, n, heq, hn⟩
      rw [Ne, take_eq_nil_iff, not_or]
      refine ⟨by omega, ?_⟩
      rintro rfl
      simp [atoi] at hn
    · exact absurd rfl h

theorem getSchema_eq_ok {schemas : Registry} :
    getSchema schemas id = .ok s ↔ schemas.get id = some s
      ∨ schemas.get id = none ∧ baseID id ≠ id ∧ schemas.get (baseID id) = some s := by
  unfold getSchema
  cases hget : schemas.get id with
  | some s' => simp
  | none =>
    by_cases hbase : baseID id = id
    · simp [hbase]
    · cases hs : schemas.get (baseID id) <;> simp [hbase, hs]

theorem getSchema_registerAll :
    getSchema (registerAll l) id = .ok s ↔ (registerAll l).get s.id = some s
      ∧ (id = s.id ∨ (registerAll l).get id = none ∧ s.id ≠ []
        ∧ ∃ suffix n, id = s.id ++ ("-v" ++ suffix) ∧ atoi suffix = some n) := by
  rw [getSchema_eq_ok]
  constructor
  · rintro (h | ⟨hnone, hbase, h⟩)
    · obtain ⟨rfl, -⟩ := get_registerAll h
      exact ⟨h, Or.inl rfl⟩
    · obtain ⟨hid, -⟩ := get_registerAll h
      rw [hid]
      exact ⟨h, Or.inr ⟨hnone, eq_of_baseID_ne hbase⟩⟩
  · rintro ⟨h, rfl | ⟨hnone, hid, suffix, n, rfl, hn⟩⟩
    · exact Or.inl h
    · rw [baseID_append hid hn]
      exact Or.inr ⟨hnone, (append_version_ne s.id suffix).symm, h⟩

def IsVersion (digits : Bytes) : Prop := IsDigits digits ∧ 0 < natVal digits

theorem isVersion_iff (h : atoi suffix = some n) :
    IsVersion suffix ↔ 0 < n ∧ suffix.head? ≠ some 43 := by
  obtain ⟨digits, hne, hdigits, -, -, hs⟩ := atoi_eq_some.mp h
  rcases hs with ⟨rfl, rfl⟩ | ⟨rfl, rfl⟩ | ⟨rfl, rfl⟩
  · exact iff_of_false (fun hv => absurd (hv.1 43 mem_cons_self) (by decide)) (by simp)
  · exact iff_of_false (fun hv => absurd (hv.1 45 mem_cons_self) (by decide)) (by omega)
  · have hplus : suffix.head? ≠ some 43 := by
      intro hhead
      exact absurd (hdigits 43 (mem_of_head? hhead)) (by decide)
    simp [IsVersion, hdigits, hplus]

theorem versionedID_eq (hversion : s.version < 2 ^ 63) : ∃ digits n,
    s.versionedID = s.id ++ ("-v" ++ digits) ∧ atoi digits = some n ∧ IsVersion digits := by
  obtain ⟨v, hv, hpos, hlt⟩ : ∃ v : Nat, (if s.version ≤ 0 then 1 else s.version) = (v : Int)
      ∧ 0 < v ∧ v < 2 ^ 63 := by
    split
    · exact ⟨1, rfl, by decide, by decide⟩
    · exact ⟨s.version.toNat, by omega, by omega, by omega⟩
  refine ⟨utoa v, v, ?_, atoi_utoa hlt, isDigits_utoa v, by rwa [natVal_utoa]⟩
  simp only [versionedID, hv]
  rw [itoa, if_neg (by omega), append_assoc]
  rfl

theorem getSchema_versionedID (hversion : s.version < 2 ^ 63)
    (hs : (registerAll l).get s.id = some s) :
    getSchema (registerAll l) s.versionedID = .ok s
      ↔ (registerAll l).get s.versionedID = none ∧ s.id ≠ [] := by
  obtain ⟨digits, n, heq, hn, -⟩ := versionedID_eq hversion
  rw [getSchema_registerAll, heq]
  constructor
  · rintro ⟨-, hid | ⟨hnone, hid, -⟩⟩
    · exact absurd hid (append_version_ne _ _)
    · exact ⟨hnone, hid⟩
  · rintro ⟨hnone, hid⟩
    exact ⟨hs, Or.inr ⟨hnone, hid, digits, n, rfl, hn⟩⟩

theorem getSchema_versionedID_nil (hversion : s.version < 2 ^ 63) (hid : s.id = [])
    (hnone : (registerAll l).get s.versionedID = none) :
    ∃ e, getSchema (registerAll l) s.versionedID = .err e := by
  obtain ⟨digits, n, heq, hn, -⟩ := versionedID_eq hversion
  have hbase : baseID s.versionedID = s.versionedID := by
    rw [heq, hid]
    simp only [baseID, lastIndex_version [] hn]
    rfl
  simp [getSchema, hnone, hbase]

/-- The asked ID is one of the two of a schema exactly if no other schema has its versioned ID, and
it is not an unregistered one whose suffix is zero or signed. -/
theorem getSchema_named_iff (l : List Schema) (hid : ∀ s ∈ l, s.id ≠ [])
    (hversion : ∀ s ∈ l, s.version < 2 ^ 63) (s : Schema)
    (hs : (registerAll l).get s.id = some s) (id : Bytes) :
    (getSchema (registerAll l) s.id = .ok s ∧ getSchema (registerAll l) s.versionedID = .ok s
      ∧ (getSchema (registerAll l) id = .ok s →
        id = s.id ∨ ∃ digits, IsVersion digits ∧ id = s.id ++ ("-v" ++ digits)))
    ↔ (registerAll l).get s.versionedID = none
      ∧ ∀ suffix n, id = s.id ++ ("-v" ++ suffix) → atoi suffix = some n →
        (registerAll l).get id = none → 0 < n ∧ suffix.head? ≠ some 43 := by
  obtain ⟨-, hmem⟩ := get_registerAll hs
  have hself : getSchema (registerAll l) s.id = .ok s :=
    getSchema_registerAll.mpr ⟨hs, Or.inl rfl⟩
  rw [getSchema_versionedID (hversion s hmem) hs]
  constructor
  · rintro ⟨-, ⟨hnone, -⟩, hnamed⟩
    refine ⟨hnone, fun suffix n heq hn hfree => (isVersion_iff hn).mp ?_⟩
    rcases hnamed (getSchema_registerAll.mpr ⟨hs, Or.inr ⟨hfree, hid s hmem, suffix, n, heq, hn⟩⟩)
      with h | ⟨digits, hdigits, h⟩
    · exact absurd (heq.symm.trans h) (append_version_ne _ _)
    · obtain rfl : suffix = digits := by simpa [heq] using h
      exact hdigits
  · rintro ⟨hnone, hplain⟩
    refine ⟨hself, ⟨hnone, hid s hmem⟩, fun h => ?_⟩
    rcases (getSchema_registerAll.mp h).2 with h | ⟨hfree, -, suffix, n, heq, hn⟩
    · exact Or.inl h
    · exact Or.inr ⟨suffix, (isVersion_iff hn).mpr (hplain suffix n heq hn hfree), heq⟩

namespace Sample

def legalName : Schema := ⟨"identity.legal-name", 1, "identity", false, []⟩

def shadow : Schema := { legalName with id := "identity.legal-name-v1" }

end Sample

open Sample

theorem getSchema_named_sample :
    getSchema (registerAll [legalName]) legalName.versionedID = .ok legalName
      ∧ getSchema (registerAll [legalName]) "identity.legal-name-v2"
        = .ok legalName := by
  refine ⟨((getSchema_named_iff [legalName] (by decide) (by decide) legalName
    (by decide) "identity.legal-name-v2").mpr ⟨by decide, ?_⟩).2.1, by decide⟩
  rintro suffix n heq hn -
  have hid : "identity.legal-name-v2" = legalName.id ++ ("-v" ++ "2") := by
    decide
  obtain rfl := append_cancel_left (append_cancel_left (hid.symm.trans heq))
  obtain rfl : 2 = n := Option.some.inj hn
  decide

theorem getSchema_shadowed :
    getSchema (registerAll [legalName, shadow]) legalName.versionedID
        = .ok shadow
      ∧ getSchema (registerAll [legalName]) "identity.legal-name-v+1"
        = .ok legalName
      ∧ getSchema (registerAll [legalName]) "identity.legal-name-v-7"
        = .ok legalName
      ∧ getSchema (registerAll [legalName]) "identity.legal-name-v0"
        = .ok legalName := by
  decide

end Schema

end TptIdentity
