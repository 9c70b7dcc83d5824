import TptIdentity.GoJsonRoundTrip

/-!
# Decoding into structs

Members are matched with fields up to case, later ones overwrite earlier ones, and `null` leaves
a field alone. What is written for a struct is a table of its fields (`Fields`), and is read
back along it (`unmarshalInto_fields`).
-/

namespace Go

open List Value

/-! ## Names -/

/-- Besides the capital letters, the Kelvin sign folds to `k` and the long s to `s`. -/
def foldRune (r : Nat) : Nat :=
  if 65 ≤ r ∧ r ≤ 90 then r + 32
  else if r = 0x212A then 107
  else if r = 0x17F then 115
  else r

def foldName (k : Bytes) : Bytes :=
  (runes k).flatMap fun r => encodeRune (foldRune (r.getD runeError))

/-! ## Targets -/

variable {k old raw : Bytes} {e : Bytes × Value}

section Decode

variable {S : Type}

def decodeStr (old : Bytes) : Json → Option Bytes
  | .str s => some s
  | .null => some old
  | _ => none

/-- `assign` decodes one member into the field with the given (folded) name. -/
def decodeStruct (assign : Bytes → Json → S → Option S) : Json → S → Option S
  | .obj m, s => m.foldlM (fun s e => assign (foldName e.1) e.2 s) s
  | .null, s => some s
  | _, _ => none

def decodePtr (decode : Json → S → Option S) (zero : S) : Json → Option S → Option (Option S)
  | .null, _ => some none
  | j, old => (decode j (old.getD zero)).map some

/-- A slice with what its backing array holds, also beyond the length. -/
structure Slice (S : Type) where
  backing : List S
  len : Nat
deriving Repr

def Slice.toList (s : Slice S) : List S := s.backing.take s.len

def Slice.ofList (l : List S) : Slice S := ⟨l, l.length⟩

@[simp] theorem Slice.toList_ofList (l : List S) : (Slice.ofList l).toList = l :=
  take_length

def decodeElems (decode : Json → S → Option S) (zero : S) : List Json → List S → Option (List S)
  | [], old => some old
  | j :: js, old => do
    return (← decode j (old.headD zero)) :: (← decodeElems decode zero js old.tail)

def decodeSlice (decode : Json → S → Option S) (zero : S) : Json → Slice S → Option (Slice S)
  | .arr [], _ => some (Slice.ofList [])
  | .arr js, s => (decodeElems decode zero js s.backing).map fun l => ⟨l, js.length⟩
  | .null, _ => some (Slice.ofList [])
  | _, _ => none

def decodeInt64 (old : Int64) : Json → Option Int64
  | .num d whole =>
    let n : Int := if d.neg then -d.coeff else d.coeff
    if whole ∧ -2 ^ 63 ≤ n ∧ n < 2 ^ 63 then some (Int64.ofInt n) else none
  | .null => some old
  | _ => none

def decodeStringMap : Json → Option (Map Bytes)
  | .obj m => m.foldlM (fun acc e => (decodeStr [] e.2).map (acc.set e.1)) Map.empty
  | .null => some Map.empty
  | _ => none

def unmarshalInto (decode : Json → S → Option S) (zero : S) (s : Bytes) : Res S :=
  match (parse s : Option Json) with
  | none => .err (.new "json: invalid input" [])
  | some j =>
    match decode j zero with
    | some v => .ok v
    | none => .err (.new "json: cannot unmarshal" [])

/-! ## Writing structs -/

def omitEmpty (name : Bytes) (s : Bytes) : List (Bytes × Value) :=
  if s = [] then [] else [(name, .str s)]

def omitted (x : Bytes) : Option Value := if x = [] then none else some (.str x)

variable {v : Value} {l : List Value} {decode : Json → S → Option S} {zero s : S}
  {assign : Bytes → Json → S → Option S} {name : Bytes}

theorem eq_of_mem_omitted {x : Bytes} (h : v ∈ omitted x) : v = .str x := by
  unfold omitted at h
  split at h
  · cases h
  · exact (Option.some.inj h).symm

theorem omitEmpty_eq (name x : Bytes) : omitEmpty name x = (omitted x).toList.map (name, ·) := by
  unfold omitEmpty omitted
  split
  · rfl
  · rfl

abbrev Fields := List (Bytes × Option Value)

variable {fs : Fields}

namespace Fields

def members (fs : Fields) : List (Bytes × Value) := fs.filterMap fun f => f.2.map (f.1, ·)

theorem members_nil : members [] = [] := rfl

theorem members_cons (name : Bytes) (o : Option Value) (fs : Fields) :
    members ((name, o) :: fs) = o.toList.map (name, ·) ++ members fs := by
  cases o with
  | none => rfl
  | some v => rfl

theorem mem_members : e ∈ fs.members ↔ (e.1, some e.2) ∈ fs := by
  constructor
  · intro h
    obtain ⟨⟨name, o⟩, hf, he⟩ := mem_filterMap.mp h
    obtain ⟨v, rfl, rfl⟩ := Option.map_eq_some_iff.mp he
    exact hf
  · exact fun h => mem_filterMap.mpr ⟨_, h, rfl⟩

theorem sublist_names (fs : Fields) : (fs.members.map Prod.fst).Sublist (fs.map Prod.fst) := by
  induction fs with
  | nil => exact .slnil
  | cons f fs ih =>
    obtain ⟨name, o⟩ := f
    cases o with
    | none => exact ih.cons name
    | some v => exact ih.cons_cons name

theorem name_mem : ∀ e ∈ fs.members, e.1 ∈ fs.map Prod.fst :=
  fun _ he => fs.sublist_names.subset (mem_map_of_mem he)

theorem forall_members {P : Value → Prop} (h : ∀ f ∈ fs, ∀ v ∈ f.2, P v) :
    ∀ e ∈ fs.members, P e.2 := fun _ he => h _ (mem_members.mp he) _ rfl

theorem supported_of_mem (h : (obj fs.members).supported) : ∀ f ∈ fs, ∀ v ∈ f.2, v.supported := by
  rintro ⟨name, o⟩ hf v rfl
  exact supportedMembers_iff.mp h (name, v) (mem_members.mpr hf)

end Fields

/-! ## Values that can be written and are not nested too deeply -/

structure Value.Writable (d : Nat) (v : Value) : Prop where
  supported : v.supported = true
  depth_le : v.depth ≤ d

variable {d : Nat}

theorem Value.Writable.mono {d' : Nat} (h : v.Writable d) (hd : d ≤ d') :
    v.Writable d' := ⟨h.supported, h.depth_le.trans hd⟩

theorem writable_str (d : Nat) (s : Bytes) : (Value.str s).Writable d := ⟨rfl, Nat.zero_le d⟩

theorem writable_int (d : Nat) (i : Int) : (int i).Writable d := ⟨rfl, Nat.zero_le d⟩

theorem writable_omitted (d : Nat) (x : Bytes) : ∀ v ∈ omitted x, v.Writable d :=
  fun _ hv => eq_of_mem_omitted hv ▸ writable_str d x

theorem writable_arr (h : ∀ v ∈ l, v.Writable d) : (arr l).Writable (d + 1) :=
  ⟨supportedElems_iff.mpr fun v hv => (h v hv).supported,
    Nat.succ_le_succ (elemsDepth_le.mpr fun v hv => (h v hv).depth_le)⟩

variable {m : List (Bytes × Value)}

theorem writable_obj (h : ∀ e ∈ m, e.2.Writable d) : (obj m).Writable (d + 1) :=
  ⟨supportedMembers_iff.mpr fun e he => (h e he).supported,
    Nat.succ_le_succ (membersDepth_le.mpr fun e he => (h e he).depth_le)⟩

theorem writable_fields (h : ∀ f ∈ fs, ∀ v ∈ f.2, v.Writable d) :
    (obj fs.members).Writable (d + 1) := writable_obj (Fields.forall_members h)

/-! ## Reading written structs -/

def lowerByte (b : UInt8) : UInt8 := if 65 ≤ b.toNat ∧ b.toNat ≤ 90 then b + 32 else b

theorem foldName_ascii (h : IsAscii k) : foldName (coerce k) = k.map lowerByte := by
  have hrune : ∀ b ∈ k, encodeRune (foldRune b.toNat) = [lowerByte b] := by
    intro b hb
    have hlt := h b hb
    by_cases hupper : 65 ≤ b.toNat ∧ b.toNat ≤ 90
    · have hadd : (b + 32).toNat = b.toNat + 32 := by
        rw [UInt8.toNat_add]
        have h32 : (32 : UInt8).toNat = 32 := rfl
        omega
      rw [foldRune, if_pos hupper, lowerByte, if_pos hupper, ← hadd, encodeRune_ascii (by omega)]
    · rw [foldRune, if_neg hupper, if_neg (by omega), if_neg (by omega), lowerByte, if_neg hupper,
        encodeRune_ascii hlt]
  rw [coerce_eq_self (validUtf8_of_ascii h), foldName, runes_of_ascii h, flatMap_map]
  exact (flatMap_congr hrune).trans map_eq_flatMap.symm

def IsFieldName (k : Bytes) : Bool := k.all fun b => b.toNat < 65 || (90 < b.toNat && b.toNat < 128)

theorem foldName_coerce (h : IsFieldName k) : foldName (coerce k) = k := by
  have hbytes : ∀ b ∈ k, b.toNat < 65 ∨ (90 < b.toNat ∧ b.toNat < 128) := by
    simpa [IsFieldName] using h
  have hascii : IsAscii k := fun b hb => by
    have := hbytes b hb
    omega
  have hlower : ∀ b ∈ k, lowerByte b = b := fun b hb => by
    have := hbytes b hb
    exact if_neg (by omega)
  rw [foldName_ascii hascii, map_congr_left hlower, map_id']

theorem decodeStr_wire_str (old s : Bytes) : decodeStr old (Value.str s).wire = some (coerce s)
    := rfl

theorem decodeStr_wire {s : Bytes} (h : validUtf8 s) : decodeStr old (Value.str s).wire = some s :=
  congrArg some (coerce_eq_self h)

theorem decodeInt64_wire (old x : Int64) : decodeInt64 old (int x.toInt).wire = some x := by
  have hlo := x.le_toInt
  have hhi := x.toInt_lt
  have hval : (if x.toInt < 0 then -(x.toInt.natAbs : Int) else x.toInt.natAbs) = x.toInt := by
    split <;> omega
  simp only [wire, decodeInt64, decide_eq_true_eq, hval, hlo, hhi, and_self, if_true,
    Int64.ofInt_toInt]

theorem decodeStruct_wire (assign : Bytes → Json → S → Option S)
    (m : List (Bytes × Value)) (s : S) :
    decodeStruct assign (obj m).wire s
      = m.foldlM (fun s e => assign (foldName (coerce e.1)) e.2.wire s) s := by
  rw [wire, wireMembers_eq]
  exact foldlM_map

def Reads (assign : Bytes → Json → S → Option S) (m : List (Bytes × Value)) (s s' : S) : Prop :=
  m.foldlM (fun s e => assign (foldName (coerce e.1)) e.2.wire s) s = some s'

def ReadsAs {X : Type} (decode : Json → Option X) (old : X) (o : Option Value) (x : X) : Prop :=
  o.elim (x = old) fun v => decode v.wire = some x

theorem readsAs_omitted (x : Bytes) : ReadsAs (decodeStr []) [] (omitted x) (coerce x) := by
  unfold omitted
  split
  · next h =>
    rw [h]
    rfl
  · rfl

section Reads

variable {T X : Type} {assign : Bytes → Json → S → Option S}

theorem decodeStruct_of_reads {s s' : S} (h : Reads assign m s s') :
    decodeStruct assign (obj m).wire s = some s' := by
  rw [decodeStruct_wire]
  exact h

theorem reads_nil (s : S) : Reads assign [] s s := rfl

theorem Reads.append {m' : List (Bytes × Value)} {s s' s'' : S} (h : Reads assign m s s')
    (h' : Reads assign m' s' s'') : Reads assign (m ++ m') s s'' := by
  rw [Reads, foldlM_append, show _ = _ from h]
  exact h'

theorem reads_field {name : Bytes} {o : Option Value} {s s' : S} {decode : Json → Option X}
    {set : X → S} {old x : X} (h : ReadsAs decode old o x)
    (hrest : Reads assign (Fields.members fs) (set x) s') (hname : IsAscii name := by decide)
    (hassign : ∀ j, assign (name.map lowerByte) j s = (decode j).map set := by exact fun _ => rfl)
    (hold : set old = s := by exact rfl) :
    Reads assign (Fields.members ((name, o) :: fs)) s s' := by
  cases o with
  | none =>
    obtain rfl : x = old := h
    exact hold ▸ hrest
  | some v =>
    have hv : decode v.wire = some x := h
    show Reads assign ((name, v) :: Fields.members fs) s s'
    rw [Reads, foldlM_cons, foldName_ascii hname, hassign, hv]
    exact hrest

theorem Reads.embed {outer : Bytes → Json → T → Option T} (wrap : S → T) {names : List Bytes}
    (houter : ∀ name ∈ names, ∀ j s, outer (foldName (coerce name)) j (wrap s)
      = (assign (foldName (coerce name)) j s).map wrap) {s s' : S} (hnames : ∀ e ∈ m, e.1 ∈ names)
    (h : Reads assign m s s') : Reads outer m (wrap s) (wrap s') := by
  induction m generalizing s with
  | nil =>
    obtain rfl := Option.some.inj h
    exact reads_nil _
  | cons e m ih =>
    obtain ⟨he, hm⟩ := forall_mem_cons.mp hnames
    rw [Reads, foldlM_cons] at h
    obtain ⟨s₁, hs₁, hrest⟩ := Option.bind_eq_some_iff.mp h
    rw [Reads, foldlM_cons, houter e.1 he, hs₁]
    exact ih hm hrest

end Reads

theorem decodeElems_wire {l' : List S} (h : Forall₂ (fun v e => decode v.wire zero = some e) l l') :
    decodeElems decode zero (l.map wire) [] = some l' := by
  induction h with
  | nil => rfl
  | cons hv _ ih => simp [decodeElems, hv, ih]

theorem decodeSlice_wire {l' : List S} (h : Forall₂ (fun v e => decode v.wire zero = some e) l l') :
    decodeSlice decode zero (arr l).wire (Slice.ofList []) = some (Slice.ofList l') := by
  have helems := decodeElems_wire h
  rw [wire, wireElems_eq]
  cases h with
  | nil => rfl
  | cons hv hl =>
    simp only [map_cons] at helems ⊢
    simp [decodeSlice, Slice.ofList, helems, hl.length_eq]

theorem unmarshalInto_eq_ok :
    unmarshalInto decode zero raw = .ok s ↔ ∃ j, parse raw = some j ∧ decode j zero = some s := by
  unfold unmarshalInto
  split
  · next hparse => simp [hparse]
  · next j hparse =>
    cases hdecode : decode j zero with
    | none => simp [hparse, hdecode]
    | some v => simp [hparse, hdecode]

theorem unmarshalInto_text
    (hv : v.Writable d) (hd : d ≤ maxNestingDepth) (h : decode v.wire zero = some s) :
    unmarshalInto decode zero v.text = .ok s :=
  unmarshalInto_eq_ok.mpr ⟨_, parse_text hv.supported (hv.depth_le.trans hd), h⟩

theorem unmarshalInto_fields (hfs : (obj fs.members).Writable d) (hd : d ≤ maxNestingDepth)
    (h : Reads assign fs.members zero s) :
    unmarshalInto (decodeStruct assign) zero (obj fs.members).text = .ok s :=
  unmarshalInto_text hfs hd (decodeStruct_of_reads h)

def decodeField (field name : Bytes) (j : Json) (old : Bytes) : Option Bytes :=
  if name = field then decodeStr old j else some old

/-- Once all members with the name of a string field hold `v`, the field is `v`. -/
theorem foldlM_field {field : S → Bytes} (hfield : ∀ {k j s s'}, assign k j s = some s' →
      decodeField name k j (field s) = some (field s')) {v : Bytes} :
    ∀ {m : List (Bytes × Value)} {s s' : S},
      (∀ e ∈ m, foldName (coerce e.1) = name → e.2 = .str v) →
      (field s = coerce v ∨ ∃ e ∈ m, foldName (coerce e.1) = name) →
      m.foldlM (fun s e => assign (foldName (coerce e.1)) e.2.wire s) s = some s' →
      field s' = coerce v
  | [], s, s', _, hv, h => by
    obtain rfl : s = s' := Option.some.inj h
    rcases hv with hv | ⟨e, he, -⟩
    · exact hv
    · cases he
  | e :: m, s, s', hm, hv, h => by
    obtain ⟨he, hm⟩ := forall_mem_cons.mp hm
    obtain ⟨s₁, hs₁, h⟩ := Option.bind_eq_some_iff.mp h
    have hstep := hfield hs₁
    refine foldlM_field hfield hm ?_ h
    by_cases hname : foldName (coerce e.1) = name
    · rw [decodeField, if_pos hname, he hname] at hstep
      exact .inl (Option.some.inj hstep).symm
    · rw [decodeField, if_neg hname] at hstep
      rw [← Option.some.inj hstep]
      rcases hv with hv | ⟨e', he', hname'⟩
      · exact .inl hv
      · rcases mem_cons.mp he' with rfl | he'
        · exact absurd hname' hname
        · exact .inr ⟨e', he', hname'⟩

theorem validUtf8_decodeField {field new : Bytes} {j : Json} (hj : j.Ok d) (hold : validUtf8 old)
    (h : decodeField field name j old = some new) : validUtf8 new := by
  unfold decodeField at h
  split at h
  · cases hj with
    | str hs => exact Option.some.inj h ▸ hs
    | null => exact Option.some.inj h ▸ hold
    | bool => cases h
    | num => cases h
    | arr => cases h
    | obj => cases h
  · exact Option.some.inj h ▸ hold

theorem invariant_of_unmarshalInto {P : S → Prop} (hzero : P zero)
    (hassign : ∀ {k j s s' d}, Json.Ok d j → P s → assign k j s = some s' → P s')
    (h : unmarshalInto (decodeStruct assign) zero raw = .ok s) : P s := by
  have hfold : ∀ {m : List (Bytes × Json)} {s s' : S} {d : Nat}, (∀ e ∈ m, e.2.Ok d) → P s →
      m.foldlM (fun s e => assign (foldName e.1) e.2 s) s = some s' → P s' := by
    intro m
    induction m with
    | nil => exact fun _ hs h => Option.some.inj h ▸ hs
    | cons e m ih =>
      intro s s' d hm hs h
      obtain ⟨he, hm⟩ := forall_mem_cons.mp hm
      obtain ⟨s₁, hs₁, h⟩ := Option.bind_eq_some_iff.mp h
      exact ih hm (hassign he hs hs₁) h
  obtain ⟨j, hparse, hdecode⟩ := unmarshalInto_eq_ok.mp h
  have hok := ok_of_parse hparse
  unfold decodeStruct at hdecode
  split at hdecode
  · cases hok with
    | obj hk hm => exact hfold hm hzero hdecode
  · exact Option.some.inj hdecode ▸ hzero
  · cases hdecode

theorem exists_decodeStruct_wire :
    ∀ {m : List (Bytes × Value)},
      (∀ e ∈ m, ∀ s, (assign (foldName (coerce e.1)) e.2.wire s).isSome) →
      ∀ s, ∃ s', decodeStruct assign (obj m).wire s = some s'
  | [], _, s => ⟨s, rfl⟩
  | e :: m, h, s => by
    obtain ⟨he, hm⟩ := forall_mem_cons.mp h
    obtain ⟨s₁, hs₁⟩ := Option.isSome_iff_exists.mp (he s)
    obtain ⟨s', hs'⟩ := exists_decodeStruct_wire hm s₁
    refine ⟨s', ?_⟩
    rw [decodeStruct_wire] at hs' ⊢
    rw [foldlM_cons, hs₁]
    exact hs'

theorem get_of_foldName {m : Map Value} (hnames : ∀ e ∈ m.entries, IsFieldName e.1)
    (he : e ∈ m.entries) (h : foldName (coerce e.1) = name) : m.get name = some e.2 := by
  rw [foldName_coerce (hnames e he)] at h
  exact Map.get_eq_some_iff.mpr (h ▸ he)

theorem foldlM_decodeStr : ∀ (l : List (Bytes × Bytes)) (m : Map Bytes),
    (wireMembers (l.map fun e => (e.1, .str e.2))).foldlM
      (fun acc e => (decodeStr [] e.2).map (acc.set e.1)) m
      = some (m.setAll (l.map fun e => (coerce e.1, coerce e.2)))
  | [], _ => rfl
  | e :: l, m => foldlM_decodeStr l (m.set (coerce e.1) (coerce e.2))

theorem map_coerce_eq_self {l : List (Bytes × Bytes)}
    (hl : ∀ e ∈ l, validUtf8 e.1 ∧ validUtf8 e.2) :
    l.map (fun e => (coerce e.1, coerce e.2)) = l := by
  refine (map_congr_left fun e he => ?_).trans (map_id _)
  exact Prod.ext (coerce_eq_self (hl e he).1) (coerce_eq_self (hl e he).2)

end Decode

end Go
