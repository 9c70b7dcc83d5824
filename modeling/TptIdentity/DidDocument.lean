import TptIdentity.GoJsonFields

/-!
# Package did: documents

A DID document is stored as JSON. One whose times can be written comes back with its strings
coerced to UTF-8 (`Document.unmarshal_text`).
-/

namespace TptIdentity.Did

open Go List Value

structure VerificationMethod where
  id : Bytes
  type : Bytes
  controller : Bytes
  publicKeyMultibase : Option Bytes
  revoked : Bool
  notBefore : Option Bytes
deriving DecidableEq, Repr

structure Service where
  id : Bytes
  type : Bytes
  serviceEndpoint : Bytes
deriving DecidableEq, Repr

/-- A document. The slices that `omitempty` drops are not told apart from nil. -/
structure Document where
  context : Option (List Bytes)
  id : Bytes
  controller : Bytes
  verificationMethod : List VerificationMethod
  authentication : List Bytes
  keyAgreement : List Bytes
  assertionMethod : List Bytes
  service : List Service
  created : Option Time
  updated : Option Time

def defaultContext : List Bytes :=
  ["https://www.w3.org/ns/did/v1", "https://w3id.org/security/suites/ed25519-2020/v1",
    "https://w3id.org/security/suites/x25519-2020/v1"]

/-! ## JSON -/

def decodeStrPtr (j : Json) (old : Option Bytes) : Option (Option Bytes) :=
  decodePtr (fun j s => decodeStr s j) [] j old

def decodeNames (old : List Bytes) (j : Json) : Option (List Bytes) :=
  decodeList (fun j s => decodeStr s j) [] old j

namespace VerificationMethod

def zero : VerificationMethod := ⟨[], [], [], none, false, none⟩

def members (vm : VerificationMethod) : List (Bytes × Value) :=
  [(Go.str "id", .str vm.id), (Go.str "type", .str vm.type),
      (Go.str "controller", .str vm.controller)]
    ++ vm.publicKeyMultibase.toList.map (fun s => (Go.str "publicKeyMultibase", .str s))
    ++ (if vm.revoked = true then [(Go.str "revoked", .bool true)] else [])
    ++ vm.notBefore.toList.map (fun s => (Go.str "notBefore", .str s))

def value (vm : VerificationMethod) : Value := .obj vm.members

def assign (name : Bytes) (j : Json) (vm : VerificationMethod) : Option VerificationMethod :=
  if name = "id" then (decodeStr vm.id j).map fun x => { vm with id := x }
  else if name = "type" then (decodeStr vm.type j).map fun x => { vm with type := x }
  else if name = "controller" then
    (decodeStr vm.controller j).map fun x => { vm with controller := x }
  else if name = "publickeymultibase" then
    (decodeStrPtr j vm.publicKeyMultibase).map fun x => { vm with publicKeyMultibase := x }
  else if name = "revoked" then (decodeBool vm.revoked j).map fun x => { vm with revoked := x }
  else if name = "notbefore" then
    (decodeStrPtr j vm.notBefore).map fun x => { vm with notBefore := x }
  else some vm

end VerificationMethod

namespace Service

def zero : Service := ⟨[], [], []⟩

def value (s : Service) : Value :=
  .obj [("id", .str s.id), ("type", .str s.type), ("serviceEndpoint", .str s.serviceEndpoint)]

def assign (name : Bytes) (j : Json) (s : Service) : Option Service :=
  if name = "id" then (decodeStr s.id j).map fun x => { s with id := x }
  else if name = "type" then (decodeStr s.type j).map fun x => { s with type := x }
  else if name = "serviceendpoint" then
    (decodeStr s.serviceEndpoint j).map fun x => { s with serviceEndpoint := x }
  else some s

end Service

namespace Document

def zero : Document := ⟨none, [], [], [], [], [], [], [], none, none⟩

def zeroTime : Time := .utc (-62135596800000000000)

def members (doc : Document) : List (Bytes × Value) :=
  [(Go.str "@context", stringsValue doc.context), (Go.str "id", .str doc.id)]
    ++ omitEmpty "controller" doc.controller
    ++ optionalList "verificationMethod" VerificationMethod.value doc.verificationMethod
    ++ optionalList "authentication" str doc.authentication
    ++ optionalList "keyAgreement" str doc.keyAgreement
    ++ optionalList "assertionMethod" str doc.assertionMethod
    ++ optionalList "service" Service.value doc.service
    ++ optionalTime "created" doc.created
    ++ optionalTime "updated" doc.updated

def value (doc : Document) : Value := .obj doc.members

def assign (name : Bytes) (j : Json) (doc : Document) : Option Document :=
  if name = "@context" then
    (decodeStrings doc.context j).map fun x => { doc with context := x }
  else if name = "id" then (decodeStr doc.id j).map fun x => { doc with id := x }
  else if name = "controller" then
    (decodeStr doc.controller j).map fun x => { doc with controller := x }
  else if name = "verificationmethod" then
    (decodeList (decodeStruct VerificationMethod.assign) .zero doc.verificationMethod j).map
      fun x => { doc with verificationMethod := x }
  else if name = "authentication" then
    (decodeNames doc.authentication j).map fun x => { doc with authentication := x }
  else if name = "keyagreement" then
    (decodeNames doc.keyAgreement j).map fun x => { doc with keyAgreement := x }
  else if name = "assertionmethod" then
    (decodeNames doc.assertionMethod j).map fun x => { doc with assertionMethod := x }
  else if name = "service" then
    (decodeList (decodeStruct Service.assign) .zero doc.service j).map fun x =>
      { doc with service := x }
  else if name = "created" then
    (decodePtr (fun j t => decodeTime t j) zeroTime j doc.created).map fun x =>
      { doc with created := x }
  else if name = "updated" then
    (decodePtr (fun j t => decodeTime t j) zeroTime j doc.updated).map fun x =>
      { doc with updated := x }
  else some doc

def unmarshal (s : Bytes) : Res Document := unmarshalInto (decodeStruct assign) zero s

end Document

/-! ## What is read for a document -/

def VerificationMethod.coerced (vm : VerificationMethod) : VerificationMethod where
  id := coerce vm.id
  type := coerce vm.type
  controller := coerce vm.controller
  publicKeyMultibase := vm.publicKeyMultibase.map coerce
  revoked := vm.revoked
  notBefore := vm.notBefore.map coerce

def Service.coerced (s : Service) : Service :=
  ⟨coerce s.id, coerce s.type, coerce s.serviceEndpoint⟩

def Document.coerced (doc : Document) : Document where
  context := doc.context.map (List.map coerce)
  id := coerce doc.id
  controller := coerce doc.controller
  verificationMethod := doc.verificationMethod.map VerificationMethod.coerced
  authentication := doc.authentication.map coerce
  keyAgreement := doc.keyAgreement.map coerce
  assertionMethod := doc.assertionMethod.map coerce
  service := doc.service.map Service.coerced
  created := doc.created
  updated := doc.updated

variable (vm : VerificationMethod)

theorem VerificationMethod.coerced_coerced : vm.coerced.coerced = vm.coerced := by
  simp only [coerced, coerce_coerce, Option.map_map, Function.comp_def]

def VerificationMethod.fields (vm : VerificationMethod) : Fields :=
  [("id", some (.str vm.id)), ("type", some (.str vm.type)),
    ("controller", some (.str vm.controller)),
    ("publicKeyMultibase", vm.publicKeyMultibase.map str),
    ("revoked", if vm.revoked = true then some (.bool true) else none),
    ("notBefore", vm.notBefore.map str)]

theorem VerificationMethod.value_eq : vm.value = .obj vm.fields.members := by
  simp only [value, members, fields, Fields.members_cons, Fields.members_nil, optional_eq,
    append_assoc, append_nil]
  split
  · rfl
  · rfl

theorem readsAs_strPtr (o : Option Bytes) :
    ReadsAs (decodeStrPtr · none) none (o.map str) (o.map coerce) :=
  readsAs_ptr fun x _ => ⟨Json.noConfusion, decodeStr_wire_str [] x⟩

theorem VerificationMethod.decode_value :
    decodeStruct assign vm.value.wire zero = some vm.coerced := by
  have hrevoked : ReadsAs (decodeBool false) false
      (if vm.revoked = true then some (.bool true) else none) vm.revoked := by
    cases vm.revoked with
    | false => rfl
    | true => rfl
  rw [value_eq]
  refine decodeStruct_of_reads ?_
  refine reads_field (decodeStr_wire_str [] _) ?_
  refine reads_field (decodeStr_wire_str [] _) ?_
  refine reads_field (decodeStr_wire_str [] _) ?_
  refine reads_field (readsAs_strPtr _) ?_
  refine reads_field hrevoked ?_
  exact reads_field (readsAs_strPtr _) (reads_nil _)

theorem Service.decode_value (s : Service) :
    decodeStruct assign s.value.wire zero = some s.coerced := by
  rw [value, decodeStruct_wire]
  simp +decide [assign, decodeStr_wire_str, coerced]

structure Document.Dated (doc : Document) : Prop where
  created : ∀ t ∈ doc.created, (timeValue t).supported = true ∧ t.Regular
  updated : ∀ t ∈ doc.updated, (timeValue t).supported = true ∧ t.Regular

def Document.fields (doc : Document) : Fields :=
  [("@context", some (stringsValue doc.context)), ("id", some (.str doc.id)),
    ("controller", omitted doc.controller),
    ("verificationMethod", listed VerificationMethod.value doc.verificationMethod),
    ("authentication", listed str doc.authentication),
    ("keyAgreement", listed str doc.keyAgreement),
    ("assertionMethod", listed str doc.assertionMethod),
    ("service", listed Service.value doc.service),
    ("created", doc.created.map timeValue), ("updated", doc.updated.map timeValue)]

theorem Document.value_eq (doc : Document) : doc.value = .obj doc.fields.members := by
  simp only [value, members, fields, Fields.members_cons, Fields.members_nil, omitEmpty_eq,
    optionalList_eq, optionalTime, optional_eq, append_assoc, append_nil]
  rfl

theorem readsAs_names (l : List Bytes) :
    ReadsAs (decodeNames []) [] (listed str l) (l.map coerce) :=
  readsAs_listed fun x _ => decodeStr_wire_str [] x

variable {doc : Document}

theorem Document.reads_fields (h : doc.Dated) :
    Reads assign doc.fields.members zero doc.coerced := by
  refine reads_field (decodeStrings_wire _) ?_
  refine reads_field (decodeStr_wire_str [] _) ?_
  refine reads_field (readsAs_omitted _) ?_
  refine reads_field (readsAs_listed fun vm _ => vm.decode_value) ?_
  refine reads_field (readsAs_names _) ?_
  refine reads_field (readsAs_names _) ?_
  refine reads_field (readsAs_names _) ?_
  refine reads_field (readsAs_listed fun s _ => s.decode_value) ?_
  refine reads_field (readsAs_time h.created) ?_
  exact reads_field (readsAs_time h.updated) (reads_nil _)

/-! ## Writing -/

theorem VerificationMethod.writable : vm.value.Writable 1 := by
  have hrevoked : ∀ v ∈ (if vm.revoked = true then some (bool true) else none), v.Writable 0 := by
    cases vm.revoked with
    | false => exact fun _ hv => by cases hv
    | true => exact fun _ hv => Option.some.inj hv ▸ ⟨rfl, Nat.le_refl 0⟩
  rw [value_eq]
  refine writable_fields ?_
  simp only [fields, forall_mem_cons, Option.mem_some_iff, forall_eq', Option.forall_mem_map]
  exact ⟨writable_str 0 _, writable_str 0 _, writable_str 0 _, fun s _ => writable_str 0 s,
    hrevoked, fun s _ => writable_str 0 s, forall_mem_nil _⟩

theorem Service.writable (s : Service) : s.value.Writable 1 := by
  refine writable_obj ?_
  simp only [forall_mem_cons]
  exact ⟨writable_str 0 _, writable_str 0 _, writable_str 0 _, forall_mem_nil _⟩

theorem Document.writable (h : doc.Dated) : doc.value.Writable 3 := by
  have hcontext : (stringsValue doc.context).Writable 2 :=
    (writable_stringsValue doc.context).mono (by decide)
  have hnames : ∀ (l : List Bytes), ∀ v ∈ listed str l, v.Writable 2 := fun _ =>
    writable_listed fun s _ => writable_str 1 s
  rw [value_eq]
  refine writable_fields ?_
  simp only [fields, forall_mem_cons, Option.mem_some_iff, forall_eq', Option.forall_mem_map]
  exact ⟨hcontext, writable_str 2 _, writable_omitted 2 _, writable_listed fun vm _ => vm.writable,
    hnames _, hnames _, hnames _, writable_listed fun s _ => s.writable,
    fun t ht => writable_timeValue 2 (h.created t ht).1,
    fun t ht => writable_timeValue 2 (h.updated t ht).1, forall_mem_nil _⟩

theorem Document.marshal_value (h : doc.Dated) : marshal doc.value = .ok doc.value.text := by
  rw [marshal, if_pos (writable h).supported]

theorem Document.unmarshal_text (h : doc.Dated) : unmarshal doc.value.text = .ok doc.coerced := by
  have hwritable := writable h
  rw [value_eq] at hwritable ⊢
  exact unmarshalInto_fields hwritable (by decide) (reads_fields h)

end TptIdentity.Did
