import TptIdentity.GoJsonMap
import TptIdentity.GoJsonStruct
import TptIdentity.GoTime

/-!
# Fields of structs

Times, slices and maps of strings as fields of structs. Strings are coerced to UTF-8 on the way,
so two keys of a map can become one; `Value.norm` does not see the difference.
-/

namespace Go

open List Option Value Map

/-! ## Written values -/

def timeValue (t : Time) : Value :=
  match t.marshalJSON with
  | .ok text => .str text
  | _ => .unsupported "time.Time"

def optionalTime (name : Bytes) (t : Option Time) : List (Bytes × Value) :=
  t.toList.map fun t => (name, timeValue t)

def stringsValue : Option (List Bytes) → Value
  | none => .null
  | some l => .arr (l.map .str)

def stringMapValue (m : Map Bytes) : Value := .obj (m.entries.map fun e => (e.1, .str e.2))

def optionalStringMap (name : Bytes) (m : Map Bytes) : List (Bytes × Value) :=
  if m.entries = [] then [] else [(name, stringMapValue m)]

def optionalList {T : Type} (name : Bytes) (f : T → Value) (l : List T) : List (Bytes × Value) :=
  if l = [] then [] else [(name, .arr (l.map f))]

def listed {T : Type} (f : T → Value) (l : List T) : Option Value :=
  if l = [] then none else some (.arr (l.map f))

def mapped (m : Map Bytes) : Option Value :=
  if m.entries = [] then none else some (stringMapValue m)

theorem eq_of_mem_mapped {m : Map Bytes} {v : Value} (h : v ∈ mapped m) : v = stringMapValue m := by
  unfold mapped at h
  split at h
  · cases h
  · exact (some.inj h).symm

variable {T : Type}

theorem optional_eq (name : Bytes) (f : T → Value) (o : Option T) :
    (o.toList.map fun x => (name, f x)) = (o.map f).toList.map (name, ·) := by
  cases o with
  | none => rfl
  | some x => rfl

theorem optionalList_eq (name : Bytes) (f : T → Value) (l : List T) :
    optionalList name f l = (listed f l).toList.map (name, ·) := by
  unfold optionalList listed
  split
  · rfl
  · rfl

theorem optionalStringMap_eq (name : Bytes) (m : Map Bytes) :
    optionalStringMap name m = (mapped m).toList.map (name, ·) := by
  unfold optionalStringMap mapped
  split
  · rfl
  · rfl

variable {t : Time}

theorem writable_timeValue (d : Nat) (h : (timeValue t).supported) : (timeValue t).Writable d := by
  refine ⟨h, ?_⟩
  unfold timeValue
  split <;> exact Nat.zero_le d

variable (l : Option (List Bytes))

theorem writable_stringsValue : (stringsValue l).Writable 1 := by
  cases l with
  | none => exact ⟨rfl, Nat.zero_le 1⟩
  | some l => exact writable_arr (forall_mem_map.mpr fun s _ => writable_str 0 s)

theorem writable_stringMapValue (m : Map Bytes) : (stringMapValue m).Writable 1 :=
  writable_obj (forall_mem_map.mpr fun e _ => writable_str 0 e.2)

theorem writable_listed {d : Nat} {f : T → Value} {l : List T} (h : ∀ x ∈ l, (f x).Writable d) :
    ∀ v ∈ listed f l, v.Writable (d + 1) := by
  intro v hv
  unfold listed at hv
  split at hv
  · cases hv
  · exact some.inj hv ▸ writable_arr (forall_mem_map.mpr h)

theorem writable_mapped (m : Map Bytes) : ∀ v ∈ mapped m, v.Writable 1 :=
  fun _ hv => eq_of_mem_mapped hv ▸ writable_stringMapValue m

/-! ## Targets -/

def decodeBool (old : Bool) : Json → Option Bool
  | .bool b => some b
  | .null => some old
  | _ => none

/-- Escapes are resolved before. The decoder takes the text between the quotes as it stands, and
refuses a time that is written with escapes; no encoder writes one. -/
def decodeTime (old : Time) : Json → Option Time
  | .str s => parseRFC3339 s
  | .null => some old
  | _ => none

def decodeStrings (old : Option (List Bytes)) : Json → Option (Option (List Bytes))
  | .arr js =>
    (decodeElems (fun j s => decodeStr s j) [] js (old.getD [])).map fun l =>
      some (l.take js.length)
  | .null => some none
  | _ => none

def decodeList {S : Type} (decode : Json → S → Option S) (zero : S) (old : List S) :
    Json → Option (List S)
  | .arr js => (decodeElems decode zero js old).map fun l => l.take js.length
  | .null => some []
  | _ => none

def decodeStringMapOver (old : Map Bytes) : Json → Option (Map Bytes)
  | .obj m => m.foldlM (fun acc e => (decodeStr [] e.2).map (acc.set e.1)) old
  | .null => some empty
  | _ => none

variable {S : Type}

variable {zero : S} {g : T → S} {fs fs' : Fields} {m' : List (Bytes × Value)} {v' : Value}
  {o' : Option T}

theorem decodePtr_wire {decode : Json → S → Option S} {s : S} {v : Value} (hv : v.wire ≠ .null)
    (h : decode v.wire zero = some s) : decodePtr decode zero v.wire none = some (some s) := by
  unfold decodePtr
  split
  · next hnull => exact absurd hnull hv
  · rw [getD_none, h]
    rfl

theorem readsAs_ptr {decode : Json → S → Option S} {f : T → Value} {o : Option T}
    (h : ∀ x ∈ o, (f x).wire ≠ .null ∧ decode (f x).wire zero = some (g x)) :
    ReadsAs (decodePtr decode zero · none) none (o.map f) (o.map g) := by
  cases o with
  | none => rfl
  | some x => exact decodePtr_wire (h x rfl).1 (h x rfl).2

theorem reads_optional {X : Type} {assign : Bytes → Json → S → Option S} {name : Bytes}
    {f : T → Value} {o : Option T} {s s' : S} {decode : Json → Option X} {set : X → S} {old x : X}
    (hname : IsAscii name) (hassign : ∀ j, assign (name.map lowerByte) j s = (decode j).map set)
    (hold : set old = s) (h : ReadsAs decode old (o.map f) x) (hnew : set x = s') :
    Reads assign (o.toList.map fun x => (name, f x)) s s' := by
  subst hnew
  have hfield : Reads assign (Fields.members [(name, o.map f)]) s (set x) :=
    reads_field h (reads_nil _) hname hassign hold
  rwa [Fields.members_cons, Fields.members_nil, append_nil, ← optional_eq] at hfield

/-! ## Times -/

theorem supported_timeValue : (timeValue t).supported ↔ t.marshalJSON = .ok (t.rfc3339 true) := by
  unfold timeValue Time.marshalJSON
  split_ifs <;> simp [supported]

theorem timeValue_eq (h : (timeValue t).supported) : timeValue t = .str (t.rfc3339 true) := by
  rw [timeValue, supported_timeValue.mp h]

theorem coerce_rfc3339 (nano : Bool) (t : Time) : coerce (t.rfc3339 nano) = t.rfc3339 nano :=
  coerce_eq_self (validUtf8_of_ascii (isAscii_rfc3339 nano t))

theorem regular_of_minutes (h : (timeValue t).supported) (hminutes : t.offset % 60 = 0) :
    t.Regular := by
  have hok := supported_timeValue.mp h
  unfold Time.marshalJSON at hok
  split_ifs at hok with hyear hhours
  exact ⟨by omega, by omega, hminutes, by omega⟩

theorem regular_utc {nanos : Int} (h : (timeValue (.utc nanos)).supported) :
    (Time.utc nanos).Regular :=
  regular_of_minutes h rfl

theorem decodeTime_wire (old : Time) (h : (timeValue t).supported) (hreg : t.Regular) :
    decodeTime old (timeValue t).wire = some t := by
  rw [timeValue_eq h, wire, decodeTime, coerce_rfc3339, parseRFC3339_rfc3339 hreg]

theorem readsAs_time {o : Option Time} {zero : Time}
    (h : ∀ t ∈ o, (timeValue t).supported ∧ t.Regular) :
    ReadsAs (decodePtr (fun j t => decodeTime t j) zero · none) none (o.map timeValue) o := by
  cases o with
  | none => rfl
  | some t =>
    obtain ⟨hsup, hreg⟩ := h t rfl
    refine decodePtr_wire ?_ (decodeTime_wire zero hsup hreg)
    rw [timeValue_eq hsup]
    exact Json.noConfusion

/-! ## Slices and maps -/

theorem decodeList_wire {decode : Json → S → Option S} {f : T → Value} {l : List T}
    (h : ∀ x ∈ l, decode (f x).wire zero = some (g x)) :
    decodeList decode zero [] (arr (l.map f)).wire = some (l.map g) := by
  rw [wire, wireElems_eq, decodeList, decodeElems_wire (forall₂_map_left_iff.mpr
    (forall₂_map_right_iff.mpr (forall₂_same.mpr h)))]
  simp

theorem readsAs_listed {decode : Json → S → Option S} {f : T → Value} {l : List T}
    (h : ∀ x ∈ l, decode (f x).wire zero = some (g x)) :
    ReadsAs (decodeList decode zero []) [] (listed f l) (l.map g) := by
  unfold listed
  split
  · next hl =>
    rw [hl]
    rfl
  · exact decodeList_wire h

theorem decodeStrings_wire :
    decodeStrings none (stringsValue l).wire = some (l.map (map coerce)) := by
  cases l with
  | none => rfl
  | some l =>
    rw [stringsValue, wire, wireElems_eq, decodeStrings, getD_none,
      decodeElems_wire (forall₂_map_left_iff.mpr (forall₂_map_right_iff.mpr
        (forall₂_same.mpr fun s _ => decodeStr_wire_str [] s)))]
    simp

def Map.coerced (m : Map Bytes) : Map Bytes :=
  empty.setAll (m.entries.map fun e => (coerce e.1, coerce e.2))

theorem Map.coerced_eq_self {m : Map Bytes}
    (h : ∀ e ∈ m.entries, validUtf8 e.1 ∧ validUtf8 e.2) : m.coerced = m := by
  rw [coerced, map_coerce_eq_self h]
  refine ext_get fun k => ?_
  rw [get_setAll (.refl _), get_empty, or_none]

theorem Map.coerced_of_nil {m : Map Bytes} (h : m.entries = []) : m.coerced = .empty := by
  rw [coerced, h]
  rfl

theorem readsAs_mapped (m : Map Bytes) :
    ReadsAs (decodeStringMapOver .empty) .empty (mapped m) m.coerced := by
  unfold mapped
  split
  · next h => exact coerced_of_nil h
  · exact foldlM_decodeStr m.entries empty

/-! ## What is read is not told apart -/

theorem norm_obj (m : List (Bytes × Value)) :
    (obj m).norm
      = (membersToAny (m.map fun e => (coerce e.1, e.2.wire))).map fun l => .obj (assocOf l) := by
  rw [Value.norm, wire, wireMembers_eq, Json.toAny]

variable {m : List (Bytes × Value)}

theorem isSome_norm_obj (h : ∀ e ∈ m, (e.2.norm).isSome) : ((obj m).norm).isSome := by
  rw [norm_obj, membersToAny_of_norm h]
  rfl

theorem isSome_norm_fields (h : ∀ f ∈ fs, ∀ v ∈ f.2, (v.norm).isSome) :
    ((obj fs.members).norm).isSome :=
  isSome_norm_obj (Fields.forall_members (P := fun v => (v.norm).isSome) h)

theorem isSome_norm_stringsValue : ((stringsValue l).norm).isSome := by
  cases l with
  | none => rfl
  | some l =>
    have helems : elemsToAny ((l.map Value.str).map Value.wire)
        = some (l.map fun s => .str (coerce s)) := by
      refine elemsToAny_eq_some.mpr ?_
      simp [forall₂_map_left_iff, forall₂_map_right_iff, Value.wire, Json.toAny, forall₂_same]
    show (((Value.arr (l.map Value.str)).wire).toAny).isSome
    rw [Value.wire, wireElems_eq, Json.toAny, helems]
    rfl

abbrev SameNorm : List (Bytes × Value) → List (Bytes × Value) → Prop :=
  Forall₂ fun e e' => e.1 = e'.1 ∧ e.2.norm = e'.2.norm

theorem norm_obj_congr (h : SameNorm m m') : (obj m).norm = (obj m').norm := by
  have hmembers : membersToAny (m.map fun e => (coerce e.1, e.2.wire))
      = membersToAny (m'.map fun e => (coerce e.1, e.2.wire)) := by
    induction h with
    | nil => rfl
    | @cons e e' _ _ he _ ih =>
      have hvalue : e.2.wire.toAny = e'.2.wire.toAny := he.2
      rw [map_cons, map_cons, membersToAny, membersToAny, ih, he.1, hvalue]
  rw [norm_obj, norm_obj, hmembers]

theorem norm_str_coerce (s : Bytes) : (Value.str (coerce s)).norm = (Value.str s).norm := by
  rw [norm_str, norm_str, coerce_coerce]

theorem norm_stringsValue_coerce :
    (stringsValue (l.map (map coerce))).norm = (stringsValue l).norm := by
  cases l with
  | none => rfl
  | some l =>
    have hwire : ((l.map coerce).map Value.str).map Value.wire
        = (l.map Value.str).map Value.wire := by
      simp [wire]
    rw [map_some, stringsValue, stringsValue, Value.norm, Value.norm, wire, wire,
      wireElems_eq, wireElems_eq, hwire]

theorem norm_stringMapValue (m : Map Bytes) :
    (stringMapValue m).norm
      = some (.obj (assocOf (m.entries.map fun e => (coerce e.1, .str (coerce e.2))))) := by
  have hmembers : membersToAny ((m.entries.map fun e => (e.1, Value.str e.2)).map
      fun e => (coerce e.1, e.2.wire))
      = some (m.entries.map fun e => (coerce e.1, .str (coerce e.2))) := by
    refine membersToAny_eq_some.mpr (forall₂_map_left_iff.mpr (forall₂_map_left_iff.mpr
      (forall₂_map_right_iff.mpr (forall₂_same.mpr fun e _ => ⟨rfl, rfl⟩))))
  rw [stringMapValue, norm_obj, hmembers]
  rfl

theorem norm_stringMapValue_coerced (m : Map Bytes) :
    (stringMapValue m.coerced).norm = (stringMapValue m).norm := by
  have hcoerced : ∀ e ∈ m.coerced.entries,
      (coerce e.1, Value.str (coerce e.2)) = (e.1, .str e.2) := by
    intro e he
    obtain ⟨x, -, rfl⟩ := List.mem_map.mp (mem_of_mem_assocOf he)
    rw [coerce_coerce, coerce_coerce]
  rw [norm_stringMapValue, norm_stringMapValue, map_congr_left hcoerced]
  refine congrArg (fun l => some (Value.obj l)) ?_
  have hsorted : KeysSorted (m.coerced.entries.map fun e => (e.1, Value.str e.2)) :=
    List.pairwise_map.mpr m.coerced.sorted
  rw [assocOf_eq_self hsorted]
  show (assocOf (m.entries.map fun e => (coerce e.1, coerce e.2))).map
      (fun e => (e.1, Value.str e.2))
    = _
  rw [← assocOf_map_snd, List.map_map]
  rfl

theorem norm_fields_congr
    (h : Forall₂ (fun f f' => f.1 = f'.1 ∧ f.2.map norm = f'.2.map norm) fs fs') :
    (obj fs.members).norm = (obj fs'.members).norm := by
  refine norm_obj_congr ?_
  induction h with
  | nil => exact .nil
  | @cons f f' fs fs' hf _ ih =>
    obtain ⟨name, o⟩ := f
    obtain ⟨name', o'⟩ := f'
    obtain ⟨rfl, ho⟩ : name = name' ∧ o.map norm = o'.map norm := hf
    cases o with
    | none =>
      cases o' with
      | none => exact ih
      | some v' => cases ho
    | some v =>
      cases o' with
      | none => cases ho
      | some v' => exact .cons ⟨rfl, some.inj ho⟩ ih

theorem norm_omitted_coerce (x : Bytes) :
    (omitted (coerce x)).map Value.norm = (omitted x).map Value.norm := by
  unfold omitted
  by_cases h : x = []
  · rw [h]
    rfl
  · rw [if_neg h, if_neg (coerce_ne_nil h)]
    exact congrArg some (norm_str_coerce x)

theorem norm_mapped_coerced (m : Map Bytes) :
    (mapped m.coerced).map norm = (mapped m).map norm := by
  unfold mapped
  by_cases h : m.entries = []
  · rw [coerced_of_nil h, if_pos h]
    rfl
  · have hcoerced : m.coerced.entries ≠ [] := fun hnil =>
      h (map_eq_nil_iff.mp (assocOf_eq_nil.mp hnil))
    rw [if_neg h, if_neg hcoerced]
    exact congrArg some (norm_stringMapValue_coerced m)

theorem norm_map_coerced {f : T → Value} {g : T → T} (h : ∀ x, (f (g x)).norm = (f x).norm)
    (o : Option T) : ((o.map g).map f).map norm = (o.map f).map norm := by
  cases o with
  | none => rfl
  | some x => exact congrArg some (h x)

/-! ## What is read determines the members -/

structure FieldNames (m : List (Bytes × Value)) : Prop where
  ascii : ∀ e ∈ m, IsAscii e.1
  nodup : (m.map Prod.fst).Nodup

theorem FieldNames.of_sublist {names : List Bytes} (hascii : ∀ k ∈ names, IsAscii k)
    (hnodup : names.Nodup) (h : (m.map Prod.fst).Sublist names) : FieldNames m :=
  ⟨fun _ he => hascii _ (h.subset (mem_map_of_mem he)), hnodup.sublist h⟩

def Fields.value (k : Bytes) (fs : Fields) : Option Value := (assoc k fs).join

theorem Fields.assoc_members (h : (fs.map Prod.fst).Nodup) (k : Bytes) :
    assoc k fs.members = fs.value k := by
  induction fs with
  | nil => rfl
  | cons f fs ih =>
    obtain ⟨name, o⟩ := f
    obtain ⟨hname, hfs⟩ := nodup_cons.mp h
    rw [value, assoc_cons, members_cons, assoc_append, ih hfs]
    by_cases hk : k = name
    · subst hk
      have hnone : Fields.value k fs = none := by
        rw [← ih hfs, ← not_isSome_iff_eq_none, isSome_assoc]
        exact fun hmem => hname ((Fields.sublist_names fs).subset hmem)
      cases o with
      | none => simp [hnone]
      | some v => simp [assoc_cons]
    · cases o with
      | none => simp [hk, value]
      | some v => simp [hk, assoc_cons, value]

def ReadAlike (v v' : Value) : Prop := ∃ w, v.norm = some w ∧ v'.norm = some w

theorem assoc_of_norm {w : Value} (hm : FieldNames m) (h : (obj m).norm = some w) :
    ∃ l, w = .obj l ∧ ∀ k, Rel (fun v u => v.norm = some u) (assoc k m) (assoc k l) := by
  rw [norm_obj] at h
  obtain ⟨l, hl, rfl⟩ := map_eq_some_iff.mp h
  have hforall := forall₂_map_left_iff.mp (membersToAny_eq_some.mp hl)
  have hself : ∀ e ∈ m, coerce e.1 = e.1 := fun e he =>
    coerce_eq_self (validUtf8_of_ascii (hm.ascii e he))
  have hcoerced : (m.map fun e => coerce e.1) = l.map Prod.fst := by
    rw [← forall₂_eq_eq_eq, forall₂_map_left_iff, forall₂_map_right_iff]
    exact hforall.imp fun _ _ he => he.1
  have hkeys : l.map Prod.fst = m.map Prod.fst := hcoerced ▸ map_congr_left hself
  refine ⟨assocOf l, rfl, fun k => ?_⟩
  rw [assocOf, assoc_foldl_of_nodup (hkeys ▸ hm.nodup), assoc_nil, or_none,
    assoc_of_forall₂ hforall fun e he => by rw [hself e he]]
  cases hv : assoc k m with
  | none => exact .none
  | some v =>
    obtain ⟨e', -, he'⟩ := exists_of_mem_forall₂ hforall.flip _ (mem_of_assoc_eq_some hv)
    have hnorm : v.norm = some e'.2 := he'.2
    rw [bind_some, hnorm]
    exact .some hnorm

theorem assoc_str_of_norm {l : List (Bytes × Value)} {k s : Bytes} (hm : FieldNames m)
    (h : (obj m).norm = some (.obj l)) (hs : validUtf8 s)
    (hk : assoc k m = some (.str s)) : assoc k l = some (.str s) := by
  obtain ⟨l', heq, hassoc⟩ := assoc_of_norm hm h
  obtain rfl := obj.inj heq
  have hrel := hassoc k
  rw [hk] at hrel
  generalize assoc k l = o at hrel
  cases hrel with
  | some hnorm => rw [← hnorm, norm_str, coerce_eq_self hs]

theorem readAlike_members (hm : FieldNames m) (hm' : FieldNames m')
    (h : ReadAlike (.obj m) (.obj m')) (k : Bytes) :
    Rel ReadAlike (assoc k m) (assoc k m') := by
  obtain ⟨w, hw, hw'⟩ := h
  obtain ⟨l, rfl, hl⟩ := assoc_of_norm hm hw
  obtain ⟨l', heq, hl'⟩ := assoc_of_norm hm' hw'
  obtain rfl := obj.inj heq
  have hk := hl k
  have hk' := hl' k
  revert hk hk'
  generalize assoc k m = o, assoc k m' = o', assoc k l = u
  rintro (hv | -) hk'
  · cases hk' with
    | some hv' => exact .some ⟨_, hv, hv'⟩
  · cases hk' with
    | none => exact .none

theorem ReadAlike.of_some {v : Value} (h : Rel ReadAlike (some v) (some v')) : ReadAlike v v' := by
  cases h with
  | some h => exact h

theorem readAlike_fields (names : List Bytes) (hascii : ∀ k ∈ names, IsAscii k)
    (hnodup : names.Nodup) (hfs : fs.map Prod.fst = names) (hfs' : fs'.map Prod.fst = names)
    (h : ReadAlike (.obj fs.members) (.obj fs'.members)) (k : Bytes) :
    Rel ReadAlike (fs.value k) (fs'.value k) := by
  rw [← fs.assoc_members (hfs ▸ hnodup), ← fs'.assoc_members (hfs' ▸ hnodup)]
  exact readAlike_members (.of_sublist hascii hnodup (hfs ▸ fs.sublist_names))
    (.of_sublist hascii hnodup (hfs' ▸ fs'.sublist_names)) h k

theorem assoc_map_snd {V W : Type} (f : V → W) (k : Bytes) (m : List (Bytes × V)) :
    assoc k (m.map fun e => (e.1, f e.2)) = (assoc k m).map f := by
  induction m with
  | nil => rfl
  | cons e m ih =>
    rw [map_cons, assoc_cons, assoc_cons, ih]
    split <;> rfl

theorem map_wire_field (names : List Bytes) (hascii : ∀ k ∈ names, IsAscii k) (hnodup : names.Nodup)
    (hfs : fs.map Prod.fst = names) (hfs' : fs'.map Prod.fst = names)
    (h : (obj fs.members).wire = (obj fs'.members).wire) (k : Bytes) :
    (fs.value k).map wire = (fs'.value k).map wire := by
  have hnames : ∀ {fs : Fields}, fs.map Prod.fst = names →
      (fs.members.map fun e => (coerce e.1, e.2.wire))
        = fs.members.map fun e => (e.1, e.2.wire) := by
    rintro fs rfl
    refine map_congr_left fun e he => ?_
    rw [coerce_eq_self (validUtf8_of_ascii (hascii e.1 (Fields.name_mem e he)))]
  rw [wire, wire, wireMembers_eq, wireMembers_eq, hnames hfs, hnames hfs'] at h
  rw [← fs.assoc_members (hfs ▸ hnodup), ← fs'.assoc_members (hfs' ▸ hnodup), ← assoc_map_snd,
    ← assoc_map_snd, Json.obj.inj h]

theorem coerce_eq_of_omitted {x x' : Bytes}
    (h : (omitted x).map wire = (omitted x').map wire) : coerce x = coerce x' := by
  unfold omitted at h
  split_ifs at h with hnil hnil' hnil'
  · rw [hnil, hnil']
  · cases h
  · cases h
  · exact Json.str.inj (some.inj h)

theorem map_wire_of_listed {f : T → Value} {l l' : List T}
    (h : (listed f l).map wire = (listed f l').map wire) :
    l.map (fun x => (f x).wire) = l'.map fun x => (f x).wire := by
  unfold listed at h
  split_ifs at h with hnil hnil' hnil'
  · rw [hnil, hnil']
  · cases h
  · cases h
  · simpa [wire, wireElems_eq, Function.comp_def] using h

theorem ReadAlike.eq {d d' : Nat} {v : Value} (h : ReadAlike v v') (hv : Decoded d v)
    (hv' : Decoded d' v') : v = v' := by
  obtain ⟨w, hw, hw'⟩ := h
  rw [hv.norm] at hw
  rw [hv'.norm] at hw'
  exact (some.inj hw).trans (some.inj hw').symm

theorem ReadAlike.str {s s' : Bytes} (h : ReadAlike (.str s) (.str s')) (hs : validUtf8 s)
    (hs' : validUtf8 s') : s = s' :=
  str.inj (h.eq (Decoded.str hs : Decoded 0 _) (Decoded.str hs' : Decoded 0 _))

theorem ReadAlike.int {n n' : Int} (h : ReadAlike (.int n) (.int n')) (hn : n.natAbs ≤ 2 ^ 53)
    (hn' : n'.natAbs ≤ 2 ^ 53) : n = n' := by
  obtain ⟨w, hw, hw'⟩ := h
  obtain ⟨f, hf, rfl⟩ := norm_int hn
  obtain ⟨f', hf', rfl⟩ := norm_int hn'
  rw [hf] at hw
  rw [hf'] at hw'
  obtain rfl := num.inj (some.inj (hw.trans hw'.symm))
  rfl

theorem ReadAlike.time {t' : Time} (h : ReadAlike (timeValue t) (timeValue t'))
    (ht : (timeValue t).supported) (ht' : (timeValue t').supported) :
    t.SameText t' := by
  rw [timeValue_eq ht, timeValue_eq ht'] at h
  exact Time.sameText_of_text (h.str (validUtf8_of_ascii (isAscii_rfc3339 true t))
    (validUtf8_of_ascii (isAscii_rfc3339 true t')))

theorem decoded_stringsValue {l : Option (List Bytes)} (h : ∀ x ∈ l, ∀ s ∈ x, validUtf8 s) :
    Decoded 1 (stringsValue l) := by
  cases l with
  | none => exact .null
  | some l => exact .arr (forall_mem_map.mpr fun s hs => .str (h l rfl s hs))

theorem decoded_stringMapValue {m : Map Bytes}
    (h : ∀ e ∈ m.entries, validUtf8 e.1 ∧ validUtf8 e.2) :
    Decoded 1 (stringMapValue m) :=
  .obj (pairwise_map.mpr m.sorted) (forall_mem_map.mpr fun e he => (h e he).1)
    (forall_mem_map.mpr fun e he => .str (h e he).2)

theorem ReadAlike.strings {l l' : Option (List Bytes)}
    (h : ReadAlike (stringsValue l) (stringsValue l')) (hl : ∀ x ∈ l, ∀ s ∈ x, validUtf8 s)
    (hl' : ∀ x ∈ l', ∀ s ∈ x, validUtf8 s) : l = l' := by
  have heq := h.eq (decoded_stringsValue hl) (decoded_stringsValue hl')
  cases l with
  | none =>
    cases l' with
    | none => rfl
    | some l' => cases heq
  | some l =>
    cases l' with
    | none => cases heq
    | some l' =>
      have hmap := map_injective_iff.mpr (fun _ _ => str.inj) (arr.inj heq)
      exact congrArg some hmap

theorem ReadAlike.stringMap {m m' : Map Bytes}
    (h : ReadAlike (stringMapValue m) (stringMapValue m'))
    (hm : ∀ e ∈ m.entries, validUtf8 e.1 ∧ validUtf8 e.2)
    (hm' : ∀ e ∈ m'.entries, validUtf8 e.1 ∧ validUtf8 e.2) : m = m' := by
  have heq := h.eq (decoded_stringMapValue hm) (decoded_stringMapValue hm')
  have hinj : Function.Injective fun e : Bytes × Bytes => (e.1, Value.str e.2) := by
    intro e e' hee'
    obtain ⟨hkey, hvalue⟩ := Prod.mk.inj hee'
    exact Prod.ext hkey (str.inj hvalue)
  have hentries := map_injective_iff.mpr hinj (obj.inj heq)
  exact ext_get fun k => congrArg (assoc k) hentries

theorem ReadAlike.omitted {x x' : Bytes} (h : Rel ReadAlike (omitted x) (omitted x'))
    (hx : validUtf8 x) (hx' : validUtf8 x') : x = x' := by
  unfold Go.omitted at h
  split_ifs at h with hnil hnil' hnil'
  · rw [hnil, hnil']
  · cases h
  · cases h
  · cases h with
    | some h => exact h.str hx hx'

theorem ReadAlike.mapped {m m' : Map Bytes} (h : Rel ReadAlike (mapped m) (mapped m'))
    (hm : ∀ e ∈ m.entries, validUtf8 e.1 ∧ validUtf8 e.2)
    (hm' : ∀ e ∈ m'.entries, validUtf8 e.1 ∧ validUtf8 e.2) : m = m' := by
  unfold Go.mapped at h
  split_ifs at h with hnil hnil' hnil'
  · exact ext_get fun k => congrArg (assoc k) (hnil.trans hnil'.symm)
  · cases h
  · cases h
  · cases h with
    | some h => exact h.stringMap hm hm'

theorem rel_of_map {V : Type} {f : T → V} {R : V → V → Prop} {S : T → T → Prop} {o : Option T}
    (h : Rel R (o.map f) (o'.map f)) (hrel : ∀ x ∈ o, ∀ x' ∈ o', R (f x) (f x') → S x x') :
    Rel S o o' := by
  cases o with
  | none =>
    cases o' with
    | none => exact .none
    | some x' => cases h
  | some x =>
    cases o' with
    | none => cases h
    | some x' =>
      cases h with
      | some h => exact .some (hrel x rfl x' rfl h)

theorem eq_of_rel_map {V : Type} {f : T → V} {R : V → V → Prop} {o : Option T}
    (h : Rel R (o.map f) (o'.map f)) (hrel : ∀ x ∈ o, ∀ x' ∈ o', R (f x) (f x') → x = x') :
    o = o' := by
  have heq : Rel (· = ·) o o' := rel_of_map h hrel
  cases heq with
  | none => rfl
  | some heq => exact congrArg some heq

end Go
