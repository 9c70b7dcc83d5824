import TptIdentity.GoDecimal

/-!
# Guardian key recovery: the code

Shamir secret sharing over GF(256), with the source's shift-and-xor arithmetic. The coefficients
come from `crypto/rand`, one read per secret byte.
-/

namespace TptIdentity.Recovery

open Go

structure Share where
  index : UInt8
  value : Bytes
deriving DecidableEq, Repr

/-! ## GF(256) arithmetic -/

def gfMulLoop : Nat → UInt8 → UInt8 → UInt8 → UInt8
  | 0, p, _, _ => p
  | i + 1, p, a, b =>
    let p := if b &&& 1 ≠ 0 then p ^^^ a else p
    let hi := a &&& 0x80
    let a := a <<< 1
    -- 0x1b is the low byte of the reduction polynomial 0x11b
    let a := if hi ≠ 0 then a ^^^ 0x1b else a
    gfMulLoop i p a (b >>> 1)

def gfMul (a b : UInt8) : UInt8 := gfMulLoop 8 0 a b

def gfPolyEval (coeffs : Bytes) (x : UInt8) : UInt8 :=
  coeffs.foldr (fun c result => gfMul result x ^^^ c) 0

/-- A byte is zero after eight right shifts, so eight rounds suffice. -/
def gfInvLoop : Nat → UInt8 → UInt8 → UInt8 → UInt8
  | 0, result, _, _ => result
  | i + 1, result, a, exp =>
    if exp = 0 then result
    else
      let result := if exp &&& 1 ≠ 0 then gfMul result a else result
      gfInvLoop i result (gfMul a a) (exp >>> 1)

def gfInv (a : UInt8) : UInt8 :=
  if a = 0 then 0 else gfInvLoop 8 1 a 254

def gfWeight (xs : Bytes) (i : Nat) : UInt8 × UInt8 :=
  (List.range xs.length).foldl (fun (num, den) j =>
    if i = j then (num, den)
    else (gfMul num (xs.getD j 0), gfMul den (xs.getD i 0 ^^^ xs.getD j 0))) (1, 1)

def gfLagrange (xs ys : Bytes) : UInt8 :=
  (List.range xs.length).foldl (fun result i =>
    let (num, den) := gfWeight xs i
    result ^^^ gfMul (ys.getD i 0) (gfMul num (gfInv den))) 0

/-! ## Split and Combine -/

/-- The `shares[sh.Index-1]` that the source writes to is `sh` itself. -/
def splitByte (threshold : Nat) (rnd : Rand) (shares : List Share) (byteIdx : Nat)
    (secretByte : UInt8) : Res (List Share) := do
  let drawn ← (rnd.read byteIdx (threshold - 1)).wrapErr
    "recovery: generate coefficients: %w" []
  let coefficients := secretByte :: drawn
  return shares.map fun sh =>
    { sh with value := sh.value.set byteIdx (gfPolyEval coefficients sh.index) }

def splitLoop (threshold : Nat) (rnd : Rand) : List Share → Nat → Bytes → Res (List Share)
  | shares, _, [] => .ok shares
  | shares, byteIdx, b :: rest => do
    let shares ← splitByte threshold rnd shares byteIdx b
    splitLoop threshold rnd shares (byteIdx + 1) rest

def split (secret : Bytes) (threshold n : Int) (rnd : Rand) : Res (List Share) :=
  if secret.length = 0 then
    .err (.new "recovery: secret must not be empty" [])
  else if threshold < 2 ∨ threshold > n ∨ n > 255 then
    .err (.new "recovery: invalid parameters (threshold=%d, n=%d)" [itoa threshold, itoa n])
  else
    let shares := (List.range n.toNat).map fun i =>
      ⟨UInt8.ofNat (i + 1), List.replicate secret.length 0⟩
    splitLoop threshold.toNat rnd shares 0 secret

def combine (shares : List Share) : Res Bytes :=
  match shares with
  | [] => .err (.new "recovery: need at least 2 shares" [])
  | [_] => .err (.new "recovery: need at least 2 shares" [])
  | s₀ :: rest =>
    if rest.any fun s => s.value.length ≠ s₀.value.length then
      .err (.new "recovery: shares have inconsistent lengths" [])
    else
      .ok ((List.range s₀.value.length).map fun byteIdx =>
        gfLagrange (shares.map (·.index)) (shares.map fun s => s.value.getD byteIdx 0))

end TptIdentity.Recovery
