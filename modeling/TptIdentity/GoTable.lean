import Mathlib.Data.List.Nodup
import TptIdentity.GoBasic

/-!
# Tables with a primary key

A table is its rows in the order they were inserted, no two with the same primary key. `upsert`
is `INSERT ... ON CONFLICT DO UPDATE`. An operation is described by what `find` returns
afterwards.
-/

namespace Go

open List

variable {α κ : Type} [DecidableEq κ]

structure Table (key : α → κ) where
  rows : List α
  nodup : (rows.map key).Nodup

namespace Table

variable {key : α → κ}

def empty : Table key := ⟨[], nodup_nil⟩

def find (t : Table key) (k : κ) : Option α := t.rows.find? fun r => key r = k

variable {t : Table key} {r : α} {k : κ}

theorem key_of_find (h : t.find k = some r) : key r = k := by
  simpa using find?_some h

theorem mem_rows_iff : r ∈ t.rows ↔ t.find (key r) = some r := by
  refine ⟨fun h => ?_, fun h => mem_of_find?_eq_some h⟩
  cases hfind : t.find (key r) with
  | none =>
    have := find?_eq_none.mp hfind r h
    simp at this
  | some r' =>
    have hmem := mem_of_find?_eq_some hfind
    exact congrArg some (inj_on_of_nodup_map t.nodup hmem h (key_of_find hfind))

theorem mem_of_find (h : t.find k = some r) : r ∈ t.rows :=
  mem_of_find?_eq_some h

theorem find_eq_none_iff : t.find k = none ↔ k ∉ t.rows.map key := by
  simp [find]

def delete (t : Table key) (k : κ) : Table key :=
  ⟨t.rows.filter fun r => key r ≠ k, t.nodup.sublist (filter_sublist.map key)⟩

theorem find_delete (t : Table key) (k k' : κ) :
    (t.delete k).find k' = if k' = k then none else t.find k' := by
  simp only [find, delete, find?_filter]
  split
  · next h =>
    subst h
    simp
  · next h =>
    congr 1
    funext r
    by_cases hr : key r = k'
    · simp [hr, h]
    · simp [hr]

theorem find_delete_of_none (k' : κ) (h : t.find k = none) : (t.delete k').find k = none := by
  rw [find_delete, h, ite_self]

theorem mem_delete : r ∈ (t.delete k).rows ↔ r ∈ t.rows ∧ key r ≠ k := by
  simp [delete]

theorem length_filter_le_delete (t : Table key) (k : κ) (p : α → Bool) :
    (t.rows.filter p).length ≤ ((t.delete k).rows.filter p).length + 1 := by
  have hlist : ∀ l : List α, (l.map key).Nodup →
      (l.filter p).length ≤ ((l.filter fun r => key r ≠ k).filter p).length + 1 := by
    intro l hl
    induction l with
    | nil => exact Nat.zero_le _
    | cons r l ih =>
      obtain ⟨hr, hl⟩ := nodup_cons.mp hl
      by_cases hk : key r = k
      · have hrest : l.filter (fun r => key r ≠ k) = l := by
          refine filter_eq_self.mpr fun r' hr' => decide_eq_true ?_
          rintro rfl
          exact hr (hk ▸ mem_map_of_mem hr')
        have hdel : (r :: l).filter (fun r => key r ≠ k) = l :=
          (filter_cons_of_neg (by simpa using hk)).trans hrest
        rw [hdel, filter_cons]
        split
        · exact Nat.le_refl _
        · exact Nat.le_succ _
      · have hkept : (r :: l).filter (fun r => key r ≠ k) = r :: l.filter fun r => key r ≠ k :=
          filter_cons_of_pos (by simpa using hk)
        rw [hkept, filter_cons, filter_cons]
        split
        · exact Nat.succ_le_succ (ih hl)
        · exact ih hl
  exact hlist t.rows t.nodup

theorem filter_delete {p : α → Bool} (h : ∀ r, t.find k = some r → p r = false) :
    (t.delete k).rows.filter p = t.rows.filter p := by
  rw [delete, filter_filter]
  refine filter_congr fun r hr => ?_
  by_cases hk : key r = k
  · rw [h r (hk ▸ mem_rows_iff.mp hr), Bool.false_and]
  · simp [hk]

def deleteWhere (t : Table key) (p : α → Bool) : Table key :=
  ⟨t.rows.filter fun r => !p r, t.nodup.sublist (filter_sublist.map key)⟩

def update (t : Table key) (k : κ) (f : α → α) (hf : ∀ r, key (f r) = key r) : Table key :=
  ⟨t.rows.map fun r => if key r = k then f r else r, by
    have hkey : ∀ r, key (if key r = k then f r else r) = key r := fun r => by
      split
      · exact hf r
      · rfl
    rw [map_map]
    exact (map_congr_left fun r _ => hkey r) ▸ t.nodup⟩

theorem find_update (t : Table key) (k : κ) (f : α → α) (hf : ∀ r, key (f r) = key r) (k' : κ) :
    (t.update k f hf).find k' = if k' = k then (t.find k').map f else t.find k' := by
  have hkey : ∀ r, key (if key r = k then f r else r) = key r := fun r => by
    split
    · exact hf r
    · rfl
  rw [find, update, find?_map]
  simp only [Function.comp_def, hkey]
  change Option.map _ (t.find k') = _
  cases hfind : t.find k' with
  | none => simp
  | some r =>
    have hr := key_of_find hfind
    by_cases hk : k' = k
    · simp [hr, hk]
    · simp [hr, hk]

def append (t : Table key) (r : α) (h : t.find (key r) = none) : Table key :=
  ⟨t.rows ++ [r], by
    rw [map_append, map_singleton]
    exact t.nodup.append (nodup_singleton _) (by simpa using find_eq_none_iff.mp h)⟩

theorem find_append (t : Table key) (r : α) (h : t.find (key r) = none) (k : κ) :
    (t.append r h).find k = if k = key r then some r else t.find k := by
  rw [find, append, find?_append]
  change (t.find k).or _ = _
  split
  · next hk =>
    subst hk
    simp [h]
  · next hk => simp [Ne.symm hk]

def constraintFailed : Err := .new "UNIQUE constraint failed" []

def insert (t : Table key) (r : α) : Res Unit × Table key :=
  if h : t.find (key r) = none then (.ok (), t.append r h) else (.err constraintFailed, t)

theorem find_insert (h : (t.insert r).1 = .ok ()) : (t.insert r).2.find (key r) = some r := by
  unfold insert at h ⊢
  split at h
  · next hnew =>
    rw [dif_pos hnew]
    exact (find_append t r hnew (key r)).trans (if_pos rfl)
  · cases h

theorem find_insert_of_find {row : α} (h : t.find k = some row) (r : α) :
    (t.insert r).2.find k = some row := by
  unfold insert
  split
  · next hnew =>
    rw [find_append, if_neg, h]
    intro hk
    rw [hk, hnew] at h
    cases h
  · exact h

def mergeInto (key : α → κ) (merge : α → α → α) (r old : α) : α :=
  if key old = key r then merge old r else old

variable {merge : α → α → α}

theorem key_mergeInto (hmerge : ∀ old new, key (merge old new) = key old) (r old : α) :
    key (mergeInto key merge r old) = key old := by
  unfold mergeInto
  split
  · exact hmerge old r
  · rfl

def upsert (t : Table key) (merge : α → α → α) (hmerge : ∀ old new, key (merge old new) = key old)
    (r : α) : Table key :=
  if h : t.find (key r) = none then t.append r h
  else ⟨t.rows.map (mergeInto key merge r), by
    rw [map_map]
    exact (map_congr_left fun old _ => key_mergeInto hmerge r old) ▸ t.nodup⟩

theorem find_upsert (t : Table key) (merge : α → α → α)
    (hmerge : ∀ old new, key (merge old new) = key old) (r : α) (k : κ) :
    (t.upsert merge hmerge r).find k
      = if k = key r then some ((t.find k).elim r (merge · r)) else t.find k := by
  unfold upsert
  split
  · next h =>
    rw [find_append]
    split
    · next hk => rw [hk, h]; rfl
    · rfl
  · next h =>
    rw [find, find?_map]
    simp only [Function.comp_def, key_mergeInto hmerge]
    change Option.map _ (t.find k) = _
    split
    · next hk =>
      obtain ⟨old, hold⟩ := Option.ne_none_iff_exists'.mp (hk ▸ h)
      rw [hold]
      simp [mergeInto, key_of_find hold, hk]
    · next hk =>
      cases hold : t.find k with
      | none => rfl
      | some old => simp [mergeInto, key_of_find hold, hk]

theorem find_upsert_self (t : Table key) (hmerge : ∀ old new, key (merge old new) = key old)
    (h : ∀ old, key old = key r → merge old r = r) :
    (t.upsert merge hmerge r).find (key r) = some r := by
  rw [find_upsert, if_pos rfl]
  cases hold : t.find (key r) with
  | none => rfl
  | some old => exact congrArg some (h old (key_of_find hold))

variable (hmerge : ∀ old new, key (merge old new) = key old)

theorem filterMap_upsert_of_none {β : Type} (h : t.find (key r) = none) (f : α → Option β) :
    (t.upsert merge hmerge r).rows.filterMap f = t.rows.filterMap f ++ (f r).toList := by
  rw [upsert, dif_pos h, append, filterMap_append]
  cases hr : f r with
  | none => simp [hr]
  | some b => simp [hr]

theorem filterMap_upsert_of_some {β : Type} (hmerge : ∀ old new, key (merge old new) = key old)
    {old : α} (h : t.find (key r) = some old) {f : α → Option β}
    (hf : ∀ old new, f (merge old new) = f old) :
    (t.upsert merge hmerge r).rows.filterMap f = t.rows.filterMap f := by
  have hsame : f ∘ mergeInto key merge r = f := by
    funext row
    show f (mergeInto key merge r row) = f row
    unfold mergeInto
    split
    · exact hf row r
    · rfl
  have hne : ¬t.find (key r) = none := by
    rw [h]
    exact Option.some_ne_none old
  rw [upsert, dif_neg hne, filterMap_map, hsame]

theorem perm_cons_delete (h : t.find k = some r) : t.rows.Perm (r :: (t.delete k).rows) := by
  have hself : t.rows.filter (fun row => decide (key row = k)) = [r] := by
    have hmem := mem_of_find h
    have hnodup : (t.rows.filter fun row => decide (key row = k)).Nodup :=
      t.nodup.of_map.filter _
    refine perm_singleton.mp ((perm_ext_iff_of_nodup hnodup (nodup_singleton r)).mpr fun row => ?_)
    rw [mem_filter, decide_eq_true_eq, mem_singleton]
    constructor
    · rintro ⟨hrow, hkey⟩
      exact inj_on_of_nodup_map t.nodup hrow hmem (hkey.trans (key_of_find h).symm)
    · rintro rfl
      exact ⟨hmem, key_of_find h⟩
  have hsplit := filter_append_perm (fun row => decide (key row = k)) t.rows
  rw [hself] at hsplit
  simpa [delete] using hsplit.symm

theorem upsert_eq_self_iff :
    t.upsert merge hmerge r = t ↔ ∃ old, t.find (key r) = some old ∧ merge old r = old := by
  constructor
  · intro h
    have hfind := find_upsert t merge hmerge r (key r)
    rw [h, if_pos rfl] at hfind
    cases hold : t.find (key r) with
    | none =>
      rw [hold] at hfind
      cases hfind
    | some old =>
      rw [hold] at hfind
      exact ⟨old, rfl, (Option.some.inj hfind).symm⟩
  · rintro ⟨old, hold, hsame⟩
    have hrows : t.rows.map (mergeInto key merge r) = t.rows := by
      refine (map_congr_left fun row hrow => ?_).trans (map_id _)
      unfold mergeInto
      split
      · next hkey =>
        have hrow := mem_rows_iff.mp hrow
        rw [hkey, hold] at hrow
        rw [← Option.some.inj hrow]
        exact hsame
      · rfl
    unfold upsert
    split
    · next hnone =>
      rw [hold] at hnone
      cases hnone
    · obtain ⟨rows, hnodup⟩ := t
      simp only [mk.injEq]
      exact hrows

theorem mem_upsert {row : α} (h : row ∈ (t.upsert merge hmerge r).rows) :
    row ∈ t.rows ∨ row = r ∨ ∃ old ∈ t.rows, t.find (key r) = some old ∧ row = merge old r := by
  rw [mem_rows_iff, find_upsert] at h
  split at h
  · next hkey =>
    rw [hkey] at h
    cases hold : t.find (key r) with
    | none =>
      rw [hold] at h
      exact .inr (.inl (Option.some.inj h).symm)
    | some old =>
      rw [hold] at h
      exact .inr (.inr ⟨old, mem_of_find hold, rfl, (Option.some.inj h).symm⟩)
  · exact .inl (mem_rows_iff.mpr h)

end Table

end Go
