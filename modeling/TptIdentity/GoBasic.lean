import Mathlib.Data.List.Basic

/-!
# Go values: bytes, errors, results

A Go `string` and a `[]byte` are byte sequences (`Bytes`). An error is kept as the program built
it (`Err`). A call that returns `(value, error)` and may panic is a `Res`. `Rand` is what each
successive read of `crypto/rand` delivers.
-/

namespace Go

open List

abbrev Bytes := List UInt8

instance lawfulBEqBytes : LawfulBEq Bytes := inferInstance

def str (s : String) : Bytes := s.toByteArray.data.toList

/-- A string literal of the source is its bytes. -/
instance : Coe String Bytes := ⟨str⟩

def IsAscii (s : Bytes) : Prop := ∀ b ∈ s, b.toNat < 128

/-- A fact about all bytes is one about 256 numbers, which can be decided. -/
theorem forall_byte {P : UInt8 → Prop} (h : ∀ n < 256, P (UInt8.ofNat n)) (c : UInt8) : P c := by
  rw [← UInt8.ofNat_toNat (x := c)]
  exact h c.toNat c.toNat_lt

instance decidableIsAscii (s : Bytes) : Decidable (IsAscii s) :=
  List.decidableBAll (fun b : UInt8 => b.toNat < 128) s

theorem isAscii_nil : IsAscii [] := forall_mem_nil _

variable {s : Bytes}

theorem isAscii_cons {c : UInt8} : IsAscii (c :: s) ↔ c.toNat < 128 ∧ IsAscii s :=
  forall_mem_cons

theorem isAscii_append {t : Bytes} : IsAscii (s ++ t) ↔ IsAscii s ∧ IsAscii t :=
  forall_mem_append

theorem IsAscii.take (h : IsAscii s) (n : Nat) : IsAscii (s.take n) :=
  fun b hb => h b (mem_of_mem_take hb)

theorem IsAscii.drop (h : IsAscii s) (n : Nat) : IsAscii (s.drop n) :=
  fun b hb => h b (mem_of_mem_drop hb)

/-! ## Errors and results -/

/-- `errors.New`, or `fmt.Errorf` without (`new`) or with (`wrap`) a `%w` verb. -/
inductive Err where
  | new (format : String) (args : List Bytes)
  | wrap (format : String) (args : List Bytes) (err : Err)
deriving DecidableEq, Repr

/-- A value with a nil error, an error, or a run-time panic. -/
inductive Res (α : Type) where
  | ok (a : α)
  | err (e : Err)
  | panics (reason : String)
deriving DecidableEq, Repr

variable (format r : String) (e : Err) (args : List Bytes)

namespace Res

variable {α β : Type}

def bind : Res α → (α → Res β) → Res β
  | .ok a, f => f a
  | .err e, _ => .err e
  | .panics r, _ => .panics r

instance : Monad Res where
  pure := .ok
  bind := Res.bind

def wrapErr (format : String) (args : List Bytes) : Res α → Res α
  | .err e => .err (.wrap format args e)
  | r => r

/-- `v, _ := f()`; `d` is what the callee returns next to an error. -/
def getD (d : α) : Res α → α
  | .ok a => a
  | _ => d

def error? : Res α → Option Err
  | .err e => some e
  | _ => none

/-- The value of a call, none where `if err != nil { continue }` drops it. -/
def toOption : Res α → Option α
  | .ok a => some a
  | _ => none

def isOk : Res α → Bool
  | .ok _ => true
  | _ => false

variable (a : α) (f : α → Res β)

@[simp] theorem ok_bind : (Res.ok a >>= f) = f a := rfl

@[simp] theorem err_bind : ((Res.err e : Res α) >>= f) = .err e := rfl

@[simp] theorem panics_bind : ((Res.panics r : Res α) >>= f) = .panics r := rfl

@[simp] theorem pure_eq_ok : (pure a : Res α) = .ok a := rfl

variable {x : Res α}

theorem bind_eq_ok {f : α → Res β} {b : β} : (x >>= f) = .ok b ↔ ∃ a, x = .ok a ∧ f a = .ok b := by
  cases x with
  | ok a => simp
  | err e => simp
  | panics r => simp

@[simp] theorem wrapErr_ok : wrapErr format args (Res.ok a) = .ok a := rfl

@[simp] theorem wrapErr_err (e : Err) :
    wrapErr format args (Res.err e : Res α) = .err (.wrap format args e) := rfl

@[simp] theorem wrapErr_eq_ok {format : String} {args : List Bytes} {a : α} :
    wrapErr format args x = .ok a ↔ x = .ok a := by
  cases x <;> simp [wrapErr]

@[simp] theorem getD_ok (d a : α) : (Res.ok a).getD d = a := rfl

@[simp] theorem toOption_ok : (Res.ok a).toOption = some a := rfl

@[simp] theorem toOption_eq_some {a : α} : x.toOption = some a ↔ x = .ok a := by
  cases x <;> simp [toOption]

theorem isOk_iff : x.isOk ↔ ∃ a, x = .ok a := by
  cases x <;> simp [isOk]

theorem isOk_unit {x : Res Unit} : x.isOk ↔ x = .ok () := by
  cases x <;> simp [isOk]

theorem err_ne_ok : Res.err e ≠ .ok a := by
  intro h
  cases h

theorem panics_ne_ok : Res.panics r ≠ .ok a := by
  intro h
  cases h

instance decidableForallOk (P : α → Prop) [DecidablePred P] :
    ∀ x : Res α, Decidable (∀ a, x = .ok a → P a)
  | .ok a => decidable_of_iff (P a) ⟨fun h _ heq => Res.ok.inj heq ▸ h, fun h => h a rfl⟩
  | .err e => .isTrue fun a h => absurd h (err_ne_ok e a)
  | .panics r => .isTrue fun a h => absurd h (panics_ne_ok r a)

def returns : Res α → Bool
  | .panics _ => false
  | _ => true

theorem returns_bind {f : α → Res β} :
    (x >>= f).returns ↔ x.returns ∧ ∀ a, x = .ok a → (f a).returns := by
  cases x with
  | ok a => simp [returns]
  | err e => simp [returns]
  | panics r => simp [returns]

theorem returns_wrapErr {format : String} {args : List Bytes} :
    (x.wrapErr format args).returns = x.returns := by
  cases x with
  | ok a => rfl
  | err e => rfl
  | panics r => rfl

theorem ite_err_eq_ok {c : Prop} [Decidable c] {e : Err} {a : α} :
    (if c then .err e else x) = .ok a ↔ ¬c ∧ x = .ok a := by
  by_cases h : c <;> simp [h]

end Res

/-! ## Time

A clock reading is given in nanoseconds since 1970 (`UnixNano`), an int64;
so is a `time.Duration`. -/

def unix (nanoseconds : Int) : Int := nanoseconds / 1000000000

def day : Int := 86400000000000

/-! ## Randomness -/

/-- Which calls of a run fail, by their number. -/
abbrev Faults := Nat → Option Err

/-- Read `i` fails with `fails i` or delivers `byte i 0, byte i 1, ...`. -/
structure Rand where
  fails : Faults
  byte : Nat → Nat → UInt8

def Rand.read (r : Rand) (i n : Nat) : Res Bytes :=
  match r.fails i with
  | some e => .err e
  | none => .ok ((List.range n).map (r.byte i))

def Rand.of (byte : Nat → Nat → UInt8) : Rand := ⟨fun _ => none, byte⟩

@[simp] theorem Rand.of_read (byte : Nat → Nat → UInt8) (i n : Nat) :
    (Rand.of byte).read i n = .ok ((List.range n).map (byte i)) := rfl

end Go
