import TptIdentity.GoJsonRoundTrip

/-!
# Written maps and slices

In a map that is written and read, each key holds what its value becomes (`Value.norm`). That
what is read is right (`get_of_unmarshalMap`) and that it is read at all (`unmarshalMap_text`)
are separate facts.
-/

namespace Go

def Value.norm (v : Value) : Option Value := v.wire.toAny

@[simp] theorem norm_str (s : Bytes) : (Value.str s).norm = some (.str (coerce s)) := rfl

variable {v : Value} {s k : Bytes} {d : Nat} {raw : Map Value} {l : List Value}

theorem Decoded.norm (h : Decoded d v) : v.norm = some v := h.toAny_wire

theorem norm_int {n : Int} (hn : n.natAbs ≤ 2 ^ 53) :
    ∃ f, (Value.int n).norm = some (.num f) ∧ f.toInt64 = n := by
  obtain ⟨f, hf, hval⟩ := parseFloat_int hn
  exact ⟨f, by simp [Value.norm, Value.wire, Json.toAny, hf], hval⟩

variable {m : List (Bytes × Value)}

theorem Decoded.obj_inv (h : Decoded d (.obj m)) :
    ∃ d', d = d' + 1 ∧ (∀ e ∈ m, validUtf8 e.1) ∧ ∀ e ∈ m, Decoded d' e.2 := by
  cases h with
  | obj hs hk h => exact ⟨_, rfl, hk, h⟩

theorem unmarshal_eq_ok : unmarshal s = .ok v ↔ decodeAny s = some v := by
  unfold unmarshal
  split
  · next h => simp [h]
  · next h => simp [h]

/-! ## Maps -/

theorem unmarshalMap_text_inv {m : Map Value} (hsup : supportedMembers m.entries)
    (h : unmarshalMap (Value.obj m.entries).text = .ok raw) :
    ∃ l, raw.entries = assocOf l
      ∧ List.Forall₂ (fun e e' => coerce e.1 = e'.1 ∧ e.2.norm = some e'.2) m.entries l := by
  unfold unmarshalMap at h
  cases hparse : parse (Value.obj m.entries).text with
  | none => rw [hparse] at h; cases h
  | some j =>
    obtain rfl := eq_wire_of_parse_text (v := .obj m.entries) hsup hparse
    rw [hparse, Value.wire, wireMembers_eq] at h
    cases hmembers : membersToAny (m.entries.map fun e => (coerce e.1, e.2.wire)) with
    | none => simp only [hmembers] at h; cases h
    | some l =>
      simp only [hmembers] at h
      obtain rfl := Res.ok.inj h
      exact ⟨l, rfl, List.forall₂_map_left_iff.mp (membersToAny_eq_some.mp hmembers)⟩

theorem assoc_of_forall₂ {l l' : List (Bytes × Value)}
    (h : List.Forall₂ (fun e e' => coerce e.1 = e'.1 ∧ e.2.norm = some e'.2) l l')
    (hk : ∀ e ∈ l, coerce e.1 = k ↔ e.1 = k) : assoc k l' = (assoc k l).bind Value.norm := by
  induction h with
  | nil => rfl
  | @cons e e' l l' he _ ih =>
    have hkey := hk e List.mem_cons_self
    have hrest := ih fun x hx => hk x (List.mem_cons_of_mem _ hx)
    rw [assoc_cons, assoc_cons, hrest, ← he.1]
    by_cases h : e.1 = k
    · rw [if_pos h.symm, if_pos (hkey.mpr h).symm, Option.bind_some, he.2]
    · rw [if_neg (Ne.symm h), if_neg fun h' => h (hkey.mp h'.symm)]

theorem get_of_unmarshalMap {m : Map Value} (hsup : supportedMembers m.entries)
    (h : unmarshalMap (Value.obj m.entries).text = .ok raw)
    (hk : ∀ e ∈ m.entries, coerce e.1 = k ↔ e.1 = k) : raw.get k = (m.get k).bind Value.norm := by
  obtain ⟨l, hraw, hl⟩ := unmarshalMap_text_inv hsup h
  have hrev := assoc_of_forall₂ (List.forall₂_reverse_iff.mpr hl)
    fun e he => hk e (List.mem_reverse.mp he)
  rw [Map.get, hraw, assoc_assocOf, hrev, ← assoc_assocOf, assocOf_eq_self m.sorted]
  rfl

theorem get_ascii_of_unmarshalMap {m : Map Value} (hsup : supportedMembers m.entries)
    (h : unmarshalMap (Value.obj m.entries).text = .ok raw) (hk : IsAscii k) :
    raw.get k = (m.get k).bind Value.norm :=
  get_of_unmarshalMap hsup h fun _ _ => coerce_eq_ascii hk

theorem membersToAny_of_norm (hnorm : ∀ e ∈ m, (e.2.norm).isSome) :
    membersToAny (m.map fun e => (coerce e.1, e.2.wire))
      = some (m.map fun e => (coerce e.1, e.2.norm.getD .null)) := by
  refine membersToAny_eq_some.mpr (List.forall₂_map_left_iff.mpr
    (List.forall₂_map_right_iff.mpr (List.forall₂_same.mpr fun e he => ⟨rfl, ?_⟩)))
  obtain ⟨v, hv⟩ := Option.isSome_iff_exists.mp (hnorm e he)
  simp only [hv, Option.getD_some]
  exact hv

theorem unmarshalMap_text (hsup : supportedMembers m)
    (hdepth : membersDepth m < maxNestingDepth) (hnorm : ∀ e ∈ m, (e.2.norm).isSome) :
    unmarshalMap (Value.obj m).text
      = .ok (Map.empty.setAll (m.map fun e => (coerce e.1, e.2.norm.getD .null))) := by
  have hparse := parse_text (v := .obj m) hsup hdepth
  have hmembers := membersToAny_of_norm hnorm
  rw [Value.wire, wireMembers_eq] at hparse
  unfold unmarshalMap
  rw [hparse]
  simp only [hmembers]
  rfl

/-! ## Slices -/

theorem unmarshalSlice_of_norm {l' : List Value} (hsup : (Value.arr l).supported)
    (hdepth : (Value.arr l).depth ≤ maxNestingDepth)
    (hnorm : List.Forall₂ (fun v w => v.norm = some w) l l') :
    unmarshalSlice (Value.arr l).text = .ok l' := by
  have hparse := parse_text hsup hdepth
  have helems : elemsToAny (l.map Value.wire) = some l' :=
    elemsToAny_eq_some.mpr (List.forall₂_map_left_iff.mpr hnorm)
  rw [Value.wire, wireElems_eq] at hparse
  unfold unmarshalSlice
  rw [hparse]
  simp only [helems]

theorem decoded_of_unmarshalSlice (h : unmarshalSlice s = .ok l) : ∀ v ∈ l, ∃ d, Decoded d v := by
  unfold unmarshalSlice at h
  split at h
  · obtain rfl := Res.ok.inj h
    simp
  · next js hparse =>
    split at h
    · next l' hl' =>
      obtain rfl := Res.ok.inj h
      have hok := ok_of_parse hparse
      have hdec := decoded_of_toAny (v := .arr l') hok (by simp [Json.toAny, hl'])
      cases hdec with
      | arr hl => exact fun v hv => ⟨_, hl v hv⟩
    · cases h
  · cases h
  · cases h

end Go
