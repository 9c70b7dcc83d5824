import Mathlib.Data.List.TakeWhile
import Mathlib.Data.Nat.Digits.Lemmas
import TptIdentity.GoBasic

/-!
# Base58

The bytes are the digits of a number, written anew in base 58, with each leading zero as a `1`.
Every byte string has one encoding, and every text over the alphabet is one.
-/

namespace Go

open List UInt8

/-! ## Changing the base of a numeral -/

def ofDigitsBE (b : Nat) (ds : List Nat) : Nat := Nat.ofDigits b ds.reverse

def rebase (b b' : Nat) (ds : List Nat) : List Nat :=
  replicate (ds.takeWhile (· = 0)).length 0 ++ (Nat.digits b' (ofDigitsBE b ds)).reverse

theorem ofDigitsBE_replicate_append (b k : Nat) (ds : List Nat) :
    ofDigitsBE b (replicate k 0 ++ ds) = ofDigitsBE b ds := by
  rw [ofDigitsBE, reverse_append, reverse_replicate, Nat.ofDigits_append_replicate_zero, ofDigitsBE]

theorem takeWhile_zero_eq (ds : List Nat) :
    ds.takeWhile (· = 0) = replicate (ds.takeWhile (· = 0)).length 0 := by
  refine eq_replicate_of_mem fun d hd => ?_
  simpa using mem_takeWhile_imp hd

theorem ofDigitsBE_dropWhile (b : Nat) (ds : List Nat) :
    ofDigitsBE b (ds.dropWhile (· = 0)) = ofDigitsBE b ds := by
  rw [← ofDigitsBE_replicate_append b (ds.takeWhile (· = 0)).length, ← takeWhile_zero_eq,
    takeWhile_append_dropWhile]

theorem ofDigitsBE_rebase (b b' : Nat) (ds : List Nat) :
    ofDigitsBE b' (rebase b b' ds) = ofDigitsBE b ds := by
  rw [rebase, ofDigitsBE_replicate_append, ofDigitsBE, reverse_reverse, Nat.ofDigits_digits]

variable {ds : List Nat}

theorem rebase_lt {b b' : Nat} (hb' : 1 < b') : ∀ d ∈ rebase b b' ds, d < b' := by
  intro d hd
  rcases mem_append.mp hd with hd | hd
  · rw [eq_of_mem_replicate hd]
    omega
  · exact Nat.digits_lt_base hb' (mem_reverse.mp hd)

theorem takeWhile_zero_digits (b n : Nat) : (Nat.digits b n).reverse.takeWhile (· = 0) = [] := by
  rw [takeWhile_eq_nil_iff]
  intro hpos
  have hne : Nat.digits b n ≠ [] := by
    intro hnil
    simp [hnil] at hpos
  have hn : n ≠ 0 := Nat.digits_ne_nil_iff_ne_zero.mp hne
  have hlast := Nat.getLast_digit_ne_zero b hn
  rw [getLast_eq_getElem] at hlast
  simpa [getElem_reverse] using hlast

theorem length_takeWhile_rebase (b b' : Nat) (ds : List Nat) :
    ((rebase b b' ds).takeWhile (· = 0)).length = (ds.takeWhile (· = 0)).length := by
  rw [rebase, takeWhile_append_of_pos (by simp), takeWhile_zero_digits]
  simp

theorem digits_ofDigitsBE {b : Nat} (hb : 1 < b) (h : ∀ d ∈ ds, d < b) :
    Nat.digits b (ofDigitsBE b ds) = (ds.dropWhile (· = 0)).reverse := by
  rw [← ofDigitsBE_dropWhile]
  refine Nat.digits_ofDigits b hb _ (fun d hd => ?_) fun hne => ?_
  · exact h d ((dropWhile_sublist _).subset (mem_reverse.mp hd))
  · have hne' : ds.dropWhile (· = 0) ≠ [] := by simpa using hne
    simpa using head_dropWhile_not _ hne'

theorem rebase_rebase {b b' : Nat} (hb : 1 < b) (h : ∀ d ∈ ds, d < b) :
    rebase b' b (rebase b b' ds) = ds := by
  rw [rebase, length_takeWhile_rebase, ofDigitsBE_rebase, digits_ofDigitsBE hb h,
    reverse_reverse, ← takeWhile_zero_eq, takeWhile_append_dropWhile]

/-! ## The alphabet -/

def base58Chars : Bytes := "123456789ABCDEFGHJKLMNPQRSTUVWXYZabcdefghijkmnopqrstuvwxyz"

def base58Char (v : Nat) : UInt8 := base58Chars.getD v 0

def base58Val (c : UInt8) : Option Nat := base58Chars.idxOf? c

theorem base58Val_base58Char : ∀ v < 58, base58Val (base58Char v) = some v := by decide

theorem base58Val_eq_some {c : UInt8} {v : Nat} (h : base58Val c = some v) :
    v < 58 ∧ base58Char v = c := by
  obtain ⟨hlt, hchar, -⟩ := findIdx?_eq_some_iff_getElem.mp h
  refine ⟨hlt, ?_⟩
  rw [base58Char, getD_eq_getElem?_getD, getElem?_eq_getElem hlt]
  exact eq_of_beq hchar

/-! ## Encoding and decoding -/

def encodeBase58 (s : Bytes) : Bytes := (rebase 256 58 (s.map toNat)).map base58Char

def decodeBase58 (t : Bytes) : Option Bytes :=
  (t.mapM base58Val).map fun vs => (rebase 58 256 vs).map ofNat

theorem mapM_base58Val : ∀ {vs : List Nat}, (∀ v ∈ vs, v < 58) →
    (vs.map base58Char).mapM base58Val = some vs
  | [], _ => rfl
  | v :: vs, h => by
    have ih := mapM_base58Val fun w hw => h w (mem_cons_of_mem _ hw)
    simp [mapM_cons, base58Val_base58Char v (h v mem_cons_self), ih]

theorem mapM_base58Val_eq_some : ∀ {t : Bytes} {vs : List Nat}, t.mapM base58Val = some vs →
    (∀ v ∈ vs, v < 58) ∧ vs.map base58Char = t
  | [], vs, h => by
    obtain rfl := Option.some.inj h
    exact ⟨forall_mem_nil _, rfl⟩
  | c :: t, vs, h => by
    rw [mapM_cons] at h
    obtain ⟨v, hv, h⟩ := Option.bind_eq_some_iff.mp h
    obtain ⟨vs', hvs', h⟩ := Option.bind_eq_some_iff.mp h
    obtain rfl := Option.some.inj h
    obtain ⟨hlt, rfl⟩ := mapM_base58Val_eq_some hvs'
    obtain ⟨hv', rfl⟩ := base58Val_eq_some hv
    exact ⟨forall_mem_cons.mpr ⟨hv', hlt⟩, rfl⟩

theorem mapM_base58Val_eq_none : ∀ {t : Bytes},
    t.mapM base58Val = none ↔ ∃ c ∈ t, base58Val c = none
  | [] => by simp
  | c :: t => by
    have ih := @mapM_base58Val_eq_none t
    cases hc : base58Val c with
    | none => simp [mapM_cons, hc]
    | some v =>
      cases ht : t.mapM base58Val with
      | none => simp [mapM_cons, hc, ht, ← ih]
      | some vs => simp [mapM_cons, hc, ht, ← ih]

theorem map_toNat_lt (s : Bytes) : ∀ d ∈ s.map toNat, d < 256 := by
  intro d hd
  obtain ⟨b, -, rfl⟩ := mem_map.mp hd
  exact b.toNat_lt

theorem map_toNat_ofNat (h : ∀ d ∈ ds, d < 256) : (ds.map ofNat).map toNat = ds := by
  rw [map_map]
  refine (map_congr_left fun d hd => ?_).trans (map_id ds)
  exact toNat_ofNat_of_lt' (h d hd)

theorem decodeBase58_encodeBase58 (s : Bytes) : decodeBase58 (encodeBase58 s) = some s := by
  rw [decodeBase58, encodeBase58, mapM_base58Val (rebase_lt (by decide)), Option.map_some,
    rebase_rebase (by decide) (map_toNat_lt s), map_map]
  simp [Function.comp_def]

theorem encodeBase58_of_decodeBase58 {s t : Bytes} (h : decodeBase58 t = some s) :
    encodeBase58 s = t := by
  obtain ⟨vs, hvs, rfl⟩ := Option.map_eq_some_iff.mp h
  obtain ⟨hlt, rfl⟩ := mapM_base58Val_eq_some hvs
  rw [encodeBase58, map_toNat_ofNat (rebase_lt (by decide)), rebase_rebase (by decide) hlt]

theorem ofDigitsBE_decodeBase58_lt {s t : Bytes} (h : decodeBase58 t = some s) :
    ofDigitsBE 256 (s.map toNat) < 58 ^ t.length := by
  obtain ⟨vs, hvs, rfl⟩ := Option.map_eq_some_iff.mp h
  obtain ⟨hlt, rfl⟩ := mapM_base58Val_eq_some hvs
  rw [map_toNat_ofNat (rebase_lt (by decide)), ofDigitsBE_rebase]
  have hlt' : ∀ v ∈ vs.reverse, v < 58 := fun v hv => hlt v (mem_reverse.mp hv)
  simpa [ofDigitsBE] using Nat.ofDigits_lt_base_pow_length (by decide) hlt'

theorem decodeBase58_eq_none {t : Bytes} : decodeBase58 t = none ↔ ∃ c ∈ t, base58Val c = none := by
  rw [decodeBase58, Option.map_eq_none_iff, mapM_base58Val_eq_none]

end Go
