import TptIdentity.GoBase64
import TptIdentity.GoCrypto
import TptIdentity.GoDecimal
import TptIdentity.GoStrings

/-!
# Packages did and vc: signing keys of DID documents

The part of a DID document that verification reads, and the decoding of its keys. DID resolution
and `go-multibase` are parameters (`Resolver`).
-/

namespace TptIdentity.Vc

open Go

structure VerificationMethod where
  id : Bytes
  type : Bytes
  publicKeyMultibase : Option Bytes
  revoked : Bool
deriving DecidableEq, Repr

structure Document where
  verificationMethod : List VerificationMethod
deriving DecidableEq, Repr

structure Resolver where
  resolve : Bytes → Res Document
  multibaseDecode : Bytes → Res Bytes

/-- At index `i` and shift `s`; a shift by 64 or more yields 0. -/
def decodeUvarintLoop : Nat → Nat → Nat → Bytes → Nat × Nat
  | _, _, _, [] => (0, 0)
  | i, s, x, c :: b =>
    if c.toNat < 0x80 then (x ||| (c.toNat <<< s) % 2 ^ 64, i + 1)
    else decodeUvarintLoop (i + 1) (s + 7) (x ||| ((c.toNat &&& 0x7f) <<< s) % 2 ^ 64) b

def decodeUvarint (b : Bytes) : Nat × Nat := decodeUvarintLoop 0 0 0 b

def multibaseKeyBytes (R : Resolver) (mb : Bytes) : Res Bytes :=
  match R.multibaseDecode mb with
  | .err e =>
    if hasPrefix mb "u" then (decodeB64 (mb.drop 1)).wrapErr "decode key: %w" []
    else .err (.wrap "decode key multibase: %w" [] e)
  | r => r

def decodeMultibaseEd25519 (R : Resolver) (mb : Bytes) : Res Bytes := do
  let raw ← multibaseKeyBytes R mb
  if raw.length < 2 then .err (.new "key too short" [])
  else
    let key := raw.drop (decodeUvarint raw).2
    if key.length ≠ Ed25519.publicKeySize then
      .err (.new "expected 32-byte Ed25519 key, got %d bytes" [utoa key.length])
    else .ok key

def resolveSigningKey (R : Resolver) (issuerDID : Bytes) : Res Bytes := do
  let doc ← (R.resolve issuerDID).wrapErr "resolve DID %q: %w" [issuerDID]
  match doc.verificationMethod.filter fun vm =>
      !vm.revoked && vm.publicKeyMultibase.isSome
        && vm.type = str "Ed25519VerificationKey2020" with
  | vm :: _ => decodeMultibaseEd25519 R (vm.publicKeyMultibase.getD [])
  | [] => .err (.new "no active Ed25519 verification method in DID document for %s" [issuerDID])

/-! ## The bytes of a key -/

/-- What follows the first byte without the continuation bit, if there is one. -/
def StripsTo (raw key : Bytes) : Prop :=
  (∃ high last, raw = high ++ last :: key ∧ (∀ c ∈ high, 0x80 ≤ c.toNat) ∧ last.toNat < 0x80)
    ∨ raw = key ∧ ∀ c ∈ raw, 0x80 ≤ c.toNat

theorem stripsTo_ed25519 (key : Bytes) : StripsTo (0xed :: 0x01 :: key) key :=
  Or.inl ⟨[0xed], 0x01, rfl, by decide +kernel, by decide +kernel⟩

theorem exists_stripsTo (raw : Bytes) : ∃ key, StripsTo raw key := by
  induction raw with
  | nil => exact ⟨[], Or.inr ⟨rfl, by simp⟩⟩
  | cons c raw ih =>
    by_cases hc : c.toNat < 0x80
    · exact ⟨raw, Or.inl ⟨[], c, rfl, by simp, hc⟩⟩
    · rw [not_lt] at hc
      rcases ih with ⟨key, ⟨high, last, rfl, hhigh, hlast⟩ | ⟨-, hraw⟩⟩
      · exact ⟨key, Or.inl ⟨c :: high, last, rfl, List.forall_mem_cons.mpr ⟨hc, hhigh⟩, hlast⟩⟩
      · exact ⟨c :: raw, Or.inr ⟨rfl, List.forall_mem_cons.mpr ⟨hc, hraw⟩⟩⟩

theorem decodeUvarintLoop_high {high : Bytes} (hhigh : ∀ c ∈ high, 0x80 ≤ c.toNat) (b : Bytes) :
    ∀ i s x, ∃ s' x', decodeUvarintLoop i s x (high ++ b)
      = decodeUvarintLoop (i + high.length) s' x' b := by
  induction high with
  | nil => exact fun _ s x => ⟨s, x, rfl⟩
  | cons c high ih =>
    intro i s x
    obtain ⟨hc, hhigh⟩ := List.forall_mem_cons.mp hhigh
    obtain ⟨s', x', h⟩ := ih hhigh (i + 1) (s + 7) (x ||| ((c.toNat &&& 0x7f) <<< s) % 2 ^ 64)
    refine ⟨s', x', ?_⟩
    rw [List.cons_append, decodeUvarintLoop, if_neg (by omega), h, List.length_cons]
    congr 1
    omega

variable {R : Resolver} {mb raw key : Bytes}

theorem StripsTo.drop_eq (h : StripsTo raw key) : raw.drop (decodeUvarint raw).2 = key := by
  rcases h with ⟨high, last, rfl, hhigh, hlast⟩ | ⟨rfl, hraw⟩
  · obtain ⟨s, x, h⟩ := decodeUvarintLoop_high hhigh (last :: key) 0 0 0
    rw [decodeUvarint, h, decodeUvarintLoop, if_pos hlast]
    simp
  · obtain ⟨s, x, h⟩ := decodeUvarintLoop_high hraw [] 0 0 0
    rw [List.append_nil] at h
    rw [decodeUvarint, h]
    rfl

theorem drop_decodeUvarint : raw.drop (decodeUvarint raw).2 = key ↔ StripsTo raw key := by
  constructor
  · rintro rfl
    obtain ⟨key, hkey⟩ := exists_stripsTo raw
    rwa [hkey.drop_eq]
  · exact StripsTo.drop_eq

theorem decodeMultibaseEd25519_eq_ok :
    decodeMultibaseEd25519 R mb = .ok key ↔ ∃ raw, multibaseKeyBytes R mb = .ok raw
      ∧ key.length = Ed25519.publicKeySize ∧ StripsTo raw key := by
  rw [decodeMultibaseEd25519, Res.bind_eq_ok]
  refine exists_congr fun raw => and_congr_right fun _ => ?_
  rw [Res.ite_err_eq_ok, Res.ite_err_eq_ok, not_not, Res.ok.injEq, ← drop_decodeUvarint]
  constructor
  · rintro ⟨-, hlen, rfl⟩
    exact ⟨hlen, rfl⟩
  · rintro ⟨hlen, rfl⟩
    refine ⟨?_, hlen, rfl⟩
    rw [List.length_drop, Ed25519.publicKeySize] at hlen
    omega

theorem decodeMultibaseEd25519_length (h : decodeMultibaseEd25519 R mb = .ok key) :
    key.length = Ed25519.publicKeySize := by
  obtain ⟨-, -, hlen, -⟩ := decodeMultibaseEd25519_eq_ok.mp h
  exact hlen

theorem resolveSigningKey_length {issuerDID : Bytes} (h : resolveSigningKey R issuerDID = .ok key) :
    key.length = Ed25519.publicKeySize := by
  obtain ⟨doc, -, h⟩ := Res.bind_eq_ok.mp h
  split at h
  · exact decodeMultibaseEd25519_length h
  · cases h

end TptIdentity.Vc
