import Mathlib.Data.List.Dedup
import Mathlib.Data.List.Lex
import Mathlib.Order.Lattice
import TptIdentity.GoBasic

/-!
# Maps

A Go map is its entries in strictly increasing key order, so equal maps are equal. A model that
depends on the order of a `for range` loop takes a permutation of the entries.
-/

namespace Go

open List Prod Option

instance linearOrderUInt8 : LinearOrder UInt8 where
  le_refl _ := UInt8.le_refl _
  le_trans _ _ _ := UInt8.le_trans
  le_antisymm _ _ := UInt8.le_antisymm
  le_total := UInt8.le_total
  lt_iff_le_not_ge a b := by simp only [UInt8.lt_iff_toNat_lt, UInt8.le_iff_toNat_le]; omega
  toDecidableLE := inferInstance
  toDecidableEq := inferInstance
  toDecidableLT := inferInstance

section Entries

variable {K V : Type} [LinearOrder K]

def KeysSorted (l : List (K × V)) : Prop := l.Pairwise fun a b => a.1 < b.1

def assoc (k : K) : List (K × V) → Option V
  | [] => none
  | e :: l => if k = e.1 then some e.2 else assoc k l

def assocSet (k : K) (v : V) : List (K × V) → List (K × V)
  | [] => [(k, v)]
  | e :: l =>
    if k < e.1 then (k, v) :: e :: l
    else if k = e.1 then (k, v) :: l
    else e :: assocSet k v l

def assocOf (l : List (K × V)) : List (K × V) :=
  l.foldl (fun m e => assocSet e.1 e.2 m) []

variable {l' : List (K × V)} (k : K)

@[simp] theorem assoc_nil : assoc k ([] : List (K × V)) = none := rfl

theorem assoc_cons (e : K × V) (l : List (K × V)) :
    assoc k (e :: l) = if k = e.1 then some e.2 else assoc k l := rfl

theorem assoc_assocSet (k' : K) (v : V) (l : List (K × V)) :
    assoc k' (assocSet k v l) = if k' = k then some v else assoc k' l := by
  induction l with
  | nil => rfl
  | cons e l ih =>
    unfold assocSet
    split
    · rfl
    · split
      · next heq =>
        subst heq
        simp only [assoc_cons]
        split <;> rfl
      · next hne =>
        rw [assoc_cons, assoc_cons, ih]
        by_cases hk : k' = e.1
        · have : k' ≠ k := fun h => hne (h ▸ hk)
          rw [if_pos hk, if_neg this, if_pos hk]
        · rw [if_neg hk, if_neg hk]

theorem mem_assocSet {k : K} {v : V} {e : K × V} :
    ∀ {l : List (K × V)}, e ∈ assocSet k v l → e = (k, v) ∨ e ∈ l
  | [], h => .inl (mem_singleton.mp h)
  | e' :: l, h => by
    unfold assocSet at h
    split at h
    · exact mem_cons.mp h
    · split at h
      · rcases mem_cons.mp h with h | h
        · exact .inl h
        · exact .inr (mem_cons_of_mem _ h)
      · rcases mem_cons.mp h with h | h
        · exact .inr (h ▸ mem_cons_self)
        · rcases mem_assocSet h with h | h
          · exact .inl h
          · exact .inr (mem_cons_of_mem _ h)

theorem keysSorted_assocSet (k : K) (v : V) :
    ∀ {l : List (K × V)}, KeysSorted l → KeysSorted (assocSet k v l)
  | [], _ => pairwise_singleton ..
  | e :: l, h => by
    obtain ⟨he, hl⟩ := pairwise_cons.mp h
    unfold assocSet
    split
    · next hlt =>
      refine pairwise_cons.mpr ⟨fun e' he' => ?_, h⟩
      rcases mem_cons.mp he' with rfl | he'
      · exact hlt
      · exact hlt.trans (he e' he')
    · next hnlt =>
      split
      · next heq =>
        exact pairwise_cons.mpr ⟨fun e' he' => heq ▸ he e' he', hl⟩
      · next hne =>
        refine pairwise_cons.mpr ⟨fun e' he' => ?_, keysSorted_assocSet k v hl⟩
        rcases mem_assocSet he' with rfl | he'
        · exact lt_of_le_of_ne (not_lt.mp hnlt) (Ne.symm hne)
        · exact he e' he'

theorem assoc_eq_some_of_mem {e : K × V} : ∀ {l : List (K × V)}, (l.map fst).Nodup → e ∈ l →
    assoc e.1 l = some e.2
  | e' :: l, h, hmem => by
    obtain ⟨he', hl⟩ := nodup_cons.mp h
    rw [assoc_cons]
    rcases mem_cons.mp hmem with rfl | hmem
    · rw [if_pos rfl]
    · have hne : e.1 ≠ e'.1 := fun heq => he' (heq ▸ mem_map_of_mem hmem)
      rw [if_neg hne, assoc_eq_some_of_mem hl hmem]

theorem mem_of_assoc_eq_some {k : K} {v : V} : ∀ {l : List (K × V)}, assoc k l = some v → (k, v) ∈ l
  | e :: l, h => by
    rw [assoc_cons] at h
    split at h
    · next hk =>
      obtain rfl := some.inj h
      exact hk ▸ mem_cons_self
    · exact mem_cons_of_mem _ (mem_of_assoc_eq_some h)

variable {l : List (K × V)}

theorem KeysSorted.nodup (h : KeysSorted l) : (l.map fst).Nodup :=
  pairwise_map.mpr (h.imp fun h => h.ne)

theorem assoc_iff_mem {k : K} {v : V} (h : (l.map fst).Nodup) : assoc k l = some v ↔ (k, v) ∈ l :=
  ⟨mem_of_assoc_eq_some, assoc_eq_some_of_mem h⟩

theorem eq_of_mem_iff {l : List (K × V)} (hl : KeysSorted l) (hl' : KeysSorted l')
    (h : ∀ e, e ∈ l ↔ e ∈ l') : l = l' :=
  have hperm := (perm_ext_iff_of_nodup (Nodup.of_map _ hl.nodup) (Nodup.of_map _ hl'.nodup)).mpr h
  hperm.eq_of_pairwise (fun _ _ _ _ hlt hgt => absurd hlt (lt_asymm hgt)) hl hl'

theorem eq_of_assoc (hl : KeysSorted l) (hl' : KeysSorted l') (h : ∀ k, assoc k l = assoc k l') :
    l = l' := by
  refine eq_of_mem_iff hl hl' fun e => ?_
  rw [← assoc_iff_mem hl.nodup, ← assoc_iff_mem hl'.nodup, h]

theorem keysSorted_foldl : ∀ (l m : List (K × V)), KeysSorted m →
    KeysSorted (l.foldl (fun m e => assocSet e.1 e.2 m) m)
  | [], _, hm => hm
  | e :: l, _, hm => keysSorted_foldl l _ (keysSorted_assocSet e.1 e.2 hm)

theorem keysSorted_assocOf (l : List (K × V)) : KeysSorted (assocOf l) :=
  keysSorted_foldl l [] Pairwise.nil

theorem mem_foldl_assocSet {e : K × V} : ∀ {l m : List (K × V)},
    e ∈ l.foldl (fun m e => assocSet e.1 e.2 m) m → e ∈ l ∨ e ∈ m
  | [], _, h => .inr h
  | e' :: l, m, h => by
    rcases mem_foldl_assocSet (l := l) h with h | h
    · exact .inl (mem_cons_of_mem _ h)
    · rcases mem_assocSet h with rfl | h
      · exact .inl mem_cons_self
      · exact .inr h

theorem mem_of_mem_assocOf {e : K × V} (h : e ∈ assocOf l) : e ∈ l := by
  rcases mem_foldl_assocSet h with h | h
  · exact h
  · cases h

theorem assoc_append (l l' : List (K × V)) : assoc k (l ++ l') = (assoc k l).or (assoc k l') := by
  induction l with
  | nil => rfl
  | cons e l ih =>
    rw [cons_append, assoc_cons, assoc_cons, ih]
    split <;> rfl

theorem assoc_foldl (k : K) : ∀ (l m : List (K × V)),
    assoc k (l.foldl (fun m e => assocSet e.1 e.2 m) m) = (assoc k l.reverse).or (assoc k m)
  | [], _ => rfl
  | e :: l, m => by
    rw [foldl_cons, assoc_foldl k l, assoc_assocSet, reverse_cons, assoc_append,
      Option.or_assoc, assoc_cons]
    split <;> rfl

theorem assoc_assocOf (l : List (K × V)) : assoc k (assocOf l) = assoc k l.reverse := by
  rw [assocOf, assoc_foldl, assoc_nil, or_none]

theorem assoc_foldl_of_nodup {k : K} : ∀ {l m : List (K × V)}, (l.map fst).Nodup →
    assoc k (l.foldl (fun m e => assocSet e.1 e.2 m) m) = (assoc k l).or (assoc k m)
  | [], _, _ => rfl
  | e :: l, m, h => by
    obtain ⟨he, hl⟩ := nodup_cons.mp h
    rw [foldl_cons, assoc_foldl_of_nodup hl, assoc_assocSet, assoc_cons]
    by_cases hk : k = e.1
    · have hnone : assoc k l = none := by
        cases hv : assoc k l with
        | none => rfl
        | some v => exact absurd (mem_map_of_mem (mem_of_assoc_eq_some hv)) (hk ▸ he)
      rw [hnone, if_pos hk, if_pos hk]
      rfl
    · rw [if_neg hk, if_neg hk]

theorem assocOf_perm (h : KeysSorted l) (hperm : l'.Perm l) : assocOf l' = l := by
  have hnodup : (l'.map fst).Nodup := (hperm.map _).nodup_iff.mpr h.nodup
  refine eq_of_mem_iff (keysSorted_assocOf l') h fun e => ?_
  rw [← assoc_iff_mem (keysSorted_assocOf l').nodup, assocOf, assoc_foldl_of_nodup hnodup,
    assoc_nil, or_none, assoc_iff_mem hnodup]
  exact hperm.mem_iff

theorem assocOf_eq_self (h : KeysSorted l) : assocOf l = l :=
  assocOf_perm h (Perm.refl l)

theorem assocOf_eq_nil : assocOf l = [] ↔ l = [] := by
  constructor
  · intro h
    cases hl : l.reverse with
    | nil => exact reverse_eq_nil_iff.mp hl
    | cons e rest =>
      have hassoc := assoc_assocOf e.1 l
      rw [h, hl, assoc_cons, if_pos rfl] at hassoc
      cases hassoc
  · intro h
    rw [h]
    rfl

theorem assocOf_map_snd {W : Type} (f : V → W) (l : List (K × V)) :
    assocOf (l.map fun e => (e.1, f e.2)) = (assocOf l).map fun e => (e.1, f e.2) := by
  have hassoc : ∀ (k : K) (l : List (K × V)),
      assoc k (l.map fun e => (e.1, f e.2)) = (assoc k l).map f := by
    intro k l
    induction l with
    | nil => rfl
    | cons e l ih =>
      rw [map_cons, assoc_cons, assoc_cons, ih]
      split <;> rfl
  have hsorted : KeysSorted ((assocOf l).map fun e => (e.1, f e.2)) :=
    pairwise_map.mpr (keysSorted_assocOf l)
  refine eq_of_assoc (keysSorted_assocOf _) hsorted fun k => ?_
  rw [assoc_assocOf, ← map_reverse, hassoc, hassoc, assoc_assocOf]

theorem isSome_assoc {k : K} : (assoc k l).isSome ↔ k ∈ l.map fst := by
  induction l with
  | nil => simp
  | cons e l ih =>
    rw [assoc_cons, map_cons, mem_cons, ← ih]
    by_cases h : k = e.1
    · simp [h]
    · simp [h]

theorem length_assocOf_eq_iff : (assocOf l).length = l.length ↔ (l.map fst).Nodup := by
  have hperm : ((assocOf l).map fst).Perm (l.map fst).dedup := by
    refine (perm_ext_iff_of_nodup (keysSorted_assocOf l).nodup (nodup_dedup _)).mpr ?_
    intro k
    rw [mem_dedup, ← isSome_assoc, assoc_assocOf, isSome_assoc, map_reverse, mem_reverse]
  have hlen := hperm.length_eq
  rw [length_map] at hlen
  rw [hlen, ← dedup_eq_self, ← length_map fst]
  exact ⟨(dedup_sublist _).eq_of_length, fun h => congrArg length h⟩

end Entries

/-! ## The bundled map -/

structure Map (V : Type) where
  entries : List (Bytes × V)
  sorted : KeysSorted entries

namespace Map

variable {V : Type}

instance : Inhabited (Map V) := ⟨⟨[], Pairwise.nil⟩⟩

def get (m : Map V) (k : Bytes) : Option V := assoc k m.entries

def set (m : Map V) (k : Bytes) (v : V) : Map V :=
  ⟨assocSet k v m.entries, keysSorted_assocSet k v m.sorted⟩

def empty : Map V := ⟨[], Pairwise.nil⟩

def setAll (m : Map V) (l : List (Bytes × V)) : Map V :=
  ⟨l.foldl (fun m e => assocSet e.1 e.2 m) m.entries, keysSorted_foldl l _ m.sorted⟩

def filterKeys (m : Map V) (p : Bytes → Bool) : Map V :=
  ⟨m.entries.filter fun e => p e.1, m.sorted.sublist filter_sublist⟩

variable {m m' : Map V} {l : List (Bytes × V)}

theorem ext_get (h : ∀ k, m.get k = m'.get k) : m = m' := by
  cases m with
  | mk l hl =>
    cases m' with
    | mk l' hl' =>
      obtain rfl : l = l' := eq_of_assoc hl hl' h
      rfl

@[simp] theorem get_empty (k : Bytes) : (empty : Map V).get k = none := rfl

theorem get_set (m : Map V) (k k' : Bytes) (v : V) :
    (m.set k v).get k' = if k' = k then some v else m.get k' := by
  rw [get, set, assoc_assocSet]
  congr

theorem get_eq_some_iff {k : Bytes} {v : V} : m.get k = some v ↔ (k, v) ∈ m.entries :=
  assoc_iff_mem m.sorted.nodup

theorem get_setAll (h : l.Perm m'.entries) (k : Bytes) :
    (m.setAll l).get k = (m'.get k).or (m.get k) := by
  have hnodup : (l.map fst).Nodup := (h.map _).nodup_iff.mpr m'.sorted.nodup
  have hl : assoc k l = assoc k (assocOf l) := by
    rw [assocOf, assoc_foldl_of_nodup hnodup, assoc_nil, or_none]
  rw [get, setAll, assoc_foldl_of_nodup hnodup, hl, assocOf_perm m'.sorted h]
  rfl

theorem get_setAll_of_not_mem {k : Bytes} (h : k ∉ l.map fst) : (m.setAll l).get k = m.get k := by
  have hnone : assoc k l.reverse = none := by
    cases hv : assoc k l.reverse with
    | none => rfl
    | some v =>
      have hmem := mem_reverse.mp (mem_of_assoc_eq_some hv)
      exact absurd (mem_map_of_mem hmem) h
  rw [get, setAll, assoc_foldl, hnone, none_or]
  rfl

theorem get_filterKeys (m : Map V) (p : Bytes → Bool) (k : Bytes) :
    (m.filterKeys p).get k = if p k then m.get k else none := by
  refine ext fun v => ?_
  rw [get_eq_some_iff]
  by_cases hp : p k
  · simp only [filterKeys, mem_filter, hp, and_true, if_true, get_eq_some_iff]
  · simp [filterKeys, hp]

def delete (m : Map V) (k : Bytes) : Map V := m.filterKeys fun k' => k' ≠ k

theorem get_delete (m : Map V) (k k' : Bytes) :
    (m.delete k).get k' = if k' = k then none else m.get k' := by
  rw [delete, get_filterKeys]
  by_cases h : k' = k
  · simp [h]
  · simp [h]

end Map

end Go
