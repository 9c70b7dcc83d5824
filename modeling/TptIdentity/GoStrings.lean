import Mathlib.Data.List.Induction
import TptIdentity.GoBasic

/-!
# Package strings, bytewise

`strings.Split` and `strings.Join` are `List.splitOn` and `List.intercalate`. What the library
lacks is here, with what a result tells about its argument.
-/

namespace Go

open List

/-! ## Prefixes and suffixes -/

def hasPrefix (s pre : Bytes) : Bool := pre.isPrefixOf s

def trimPrefix (s pre : Bytes) : Bytes :=
  if pre.isPrefixOf s then s.drop pre.length else s

def trimSuffix (s suf : Bytes) : Bytes :=
  if suf.isSuffixOf s then s.take (s.length - suf.length) else s

@[simp] theorem trimPrefix_append (pre s : Bytes) : trimPrefix (pre ++ s) pre = s := by
  have h : pre.isPrefixOf (pre ++ s) :=
    isPrefixOf_iff_prefix.mpr (prefix_append pre s)
  rw [trimPrefix, if_pos h, drop_left]

@[simp] theorem trimSuffix_append (s suf : Bytes) : trimSuffix (s ++ suf) suf = s := by
  have h : suf.isSuffixOf (s ++ suf) :=
    isSuffixOf_iff_suffix.mpr (suffix_append s suf)
  rw [trimSuffix, if_pos h]
  simp

def lastIndex (s sub : Bytes) : Option Nat :=
  (range (s.length + 1)).reverse.find? fun i => sub.isPrefixOf (s.drop i)

theorem lastIndex_append (s : Bytes) {sub suffix : Bytes}
    (h : ∀ j, ¬sub <+: (sub ++ suffix).drop (j + 1)) :
    lastIndex (s ++ (sub ++ suffix)) sub = some s.length := by
  have hrange : range ((s ++ (sub ++ suffix)).length + 1)
      = range s.length ++ s.length
        :: (range (sub ++ suffix).length).map (fun j => s.length + (j + 1)) := by
    rw [length_append, Nat.add_assoc, range_add, range_succ_eq_map, map_cons, map_map]
    rfl
  rw [lastIndex, hrange, reverse_append, reverse_cons, append_assoc,
    find?_append, find?_eq_none.mpr]
  · simp
  · intro i hi
    obtain ⟨j, -, rfl⟩ := mem_map.mp (mem_reverse.mp hi)
    rw [drop_length_add_append, isPrefixOf_iff_prefix]
    exact h j

theorem lastIndex_eq_some {s sub : Bytes} {i : Nat} (h : lastIndex s sub = some i) :
    s = s.take i ++ (sub ++ s.drop (i + sub.length)) := by
  have hpre := find?_some h
  obtain ⟨t, ht⟩ := isPrefixOf_iff_prefix.mp hpre
  have hdrop : t = s.drop (i + sub.length) := by
    rw [← drop_drop, ← ht, drop_left]
  rw [← hdrop, ht, take_append_drop]
/-! ## Splitting and joining -/

variable {sep : UInt8}

theorem not_mem_of_mem_splitOn {s p : Bytes} (hp : p ∈ s.splitOn sep) : sep ∉ p := by
  induction hn : s.length using Nat.strongRecOn generalizing s with
  | ind n ih =>
    by_cases hsep : sep ∈ s
    · obtain ⟨a, b, rfl, ha⟩ := eq_append_cons_of_mem hsep
      rw [splitOn_append_cons_self_of_not_mem ha] at hp
      rcases mem_cons.mp hp with rfl | hp
      · exact ha
      · rw [length_append, length_cons] at hn
        exact ih b.length (by omega) hp rfl
    · rw [splitOn_eq_singleton hsep, mem_singleton] at hp
      exact hp ▸ hsep

theorem intercalate_concat (sep : UInt8) (l : Bytes) : ∀ {ls : List Bytes}, ls ≠ [] →
    [sep].intercalate (ls ++ [l]) = [sep].intercalate ls ++ sep :: l
  | [a], _ => by simp [intercalate]
  | a :: b :: ls, _ => by
    have ih := @intercalate_concat sep l (b :: ls) (by simp)
    rw [cons_append, cons_append, intercalate_cons_cons, intercalate_cons_cons, ← cons_append, ih]
    simp

theorem intercalate_splitOn_append (sep : UInt8) (s : Bytes) (ls : List Bytes) :
    [sep].intercalate (s.splitOn sep ++ ls) = [sep].intercalate (s :: ls) := by
  induction ls using reverseRecOn with
  | nil => simp [intercalate_splitOn]
  | append_singleton ls l ih =>
    rw [← append_assoc, intercalate_concat sep l (by simp), ih, ← cons_append,
      intercalate_concat sep l (by simp)]

theorem intercalate_inj {ls ls' : List Bytes} (h : ∀ l ∈ ls, sep ∉ l) (h' : ∀ l ∈ ls', sep ∉ l)
    (hne : ls ≠ []) (hne' : ls' ≠ []) (heq : [sep].intercalate ls = [sep].intercalate ls') :
    ls = ls' := by
  rw [← splitOn_intercalate sep h hne, heq, splitOn_intercalate sep h' hne']

/-! ## Cutting at a separator -/

def cut (sep : UInt8) : Bytes → Option (Bytes × Bytes)
  | [] => none
  | b :: s => if b = sep then some ([], s) else (cut sep s).map fun (x, y) => (b :: x, y)

theorem cut_eq_some : ∀ {s a b : Bytes}, cut sep s = some (a, b) ↔ s = a ++ sep :: b ∧ sep ∉ a
  | [], a, b => by simp [cut]
  | x :: s, a, b => by
    by_cases hx : x = sep
    · subst hx
      rw [cut, if_pos rfl]
      constructor
      · intro h
        obtain ⟨rfl, rfl⟩ := Prod.mk.injEq .. |>.mp (Option.some.inj h)
        exact ⟨rfl, by simp⟩
      · rintro ⟨h, hna⟩
        cases a with
        | nil => simp_all
        | cons y a =>
          obtain ⟨rfl, -⟩ := cons.inj h
          exact absurd (mem_cons_self ..) hna
    · rw [cut, if_neg hx, Option.map_eq_some_iff]
      constructor
      · rintro ⟨⟨a', b'⟩, hcut, heq⟩
        obtain ⟨rfl, rfl⟩ := Prod.mk.injEq .. |>.mp heq
        obtain ⟨rfl, hna⟩ := cut_eq_some.mp hcut
        refine ⟨rfl, fun hmem => ?_⟩
        rcases mem_cons.mp hmem with h | h
        · exact hx h.symm
        · exact hna h
      · rintro ⟨h, hna⟩
        cases a with
        | nil => exact absurd (cons.inj h).1 hx
        | cons y a =>
          obtain ⟨rfl, rfl⟩ := cons.inj h
          exact ⟨(a, b), cut_eq_some.mpr
            ⟨rfl, fun hm => hna (mem_cons_of_mem _ hm)⟩, rfl⟩

theorem cut_append {a : Bytes} (b : Bytes) (h : sep ∉ a) : cut sep (a ++ sep :: b) = some (a, b) :=
  cut_eq_some.mpr ⟨rfl, h⟩

def splitN (sep : UInt8) : Nat → Bytes → List Bytes
  | 0, _ => []
  | 1, s => [s]
  | n + 2, s =>
    match cut sep s with
    | none => [s]
    | some (a, b) => a :: splitN sep (n + 1) b

theorem splitN_cut (n : Nat) {a : Bytes} (b : Bytes) (h : sep ∉ a) :
    splitN sep (n + 2) (a ++ sep :: b) = a :: splitN sep (n + 1) b := by
  rw [splitN, cut_append b h]

theorem splitN_three {s a b c : Bytes} :
    splitN sep 3 s = [a, b, c] ↔ s = a ++ sep :: (b ++ sep :: c) ∧ sep ∉ a ∧ sep ∉ b := by
  constructor
  · intro h
    rw [splitN] at h
    split at h
    · simp at h
    · rename_i a' r hcut
      obtain ⟨rfl, hr⟩ := cons.inj h
      rw [splitN] at hr
      split at hr
      · simp at hr
      · rename_i b' c' hcut'
        obtain ⟨rfl, hc⟩ := cons.inj hr
        obtain ⟨rfl, -⟩ := cons.inj hc
        obtain ⟨rfl, hna⟩ := cut_eq_some.mp hcut
        obtain ⟨rfl, hnb⟩ := cut_eq_some.mp hcut'
        exact ⟨rfl, hna, hnb⟩
  · rintro ⟨rfl, hna, hnb⟩
    rw [splitN_cut 1 _ hna, splitN_cut 0 _ hnb]
    rfl

end Go
