import TptIdentity.GoFloat
import TptIdentity.GoJsonString
import TptIdentity.GoMap

/-!
# encoding/json

`Value` is what a Go `any` can hold; `marshal` writes it. `parse` is the decoder's scanner, with
the nesting limit of Go and a fuel set from the length of the text. `toAny`, `unmarshalMap` and
`unmarshalSlice` fill an `any`, a map and a slice.
-/

namespace Go

/-- `unsupported` stands for what cannot be written: channels, functions, NaN, infinities. -/
inductive Value where
  | null
  | bool (b : Bool)
  | num (f : Float64)
  | int (i : Int)
  | str (s : Bytes)
  | arr (l : List Value)
  | obj (m : List (Bytes × Value))
  | unsupported (kind : String)
deriving Repr

/-- The syntax tree of a JSON text. A number is `whole` if it is written without a fraction and
without an exponent. -/
inductive Json where
  | null
  | bool (b : Bool)
  | num (d : Decimal) (whole : Bool)
  | str (s : Bytes)
  | arr (l : List Json)
  | obj (m : List (Bytes × Json))
deriving Repr

/-! ## Writing -/

mutual

def Value.supported : Value → Bool
  | .arr l => supportedElems l
  | .obj m => supportedMembers m
  | .unsupported _ => false
  | _ => true

def supportedElems : List Value → Bool
  | [] => true
  | v :: l => v.supported && supportedElems l

def supportedMembers : List (Bytes × Value) → Bool
  | [] => true
  | (_, v) :: m => v.supported && supportedMembers m

end

mutual

def Value.text : Value → Bytes
  | .null => Go.str "null"
  | .bool true => Go.str "true"
  | .bool false => Go.str "false"
  | .num f => formatFloat f
  | .int i => itoa i
  | .str s => encodeString s
  | .arr [] => [91, 93]
  | .arr (v :: l) => 91 :: (v.text ++ (elemsText l ++ [93]))
  | .obj [] => [123, 125]
  | .obj ((k, v) :: m) => 123 :: (encodeString k ++ 58 :: (v.text ++ (membersText m ++ [125])))
  | .unsupported _ => []

def elemsText : List Value → Bytes
  | [] => []
  | v :: l => 44 :: (v.text ++ elemsText l)

def membersText : List (Bytes × Value) → Bytes
  | [] => []
  | (k, v) :: m => 44 :: (encodeString k ++ 58 :: (v.text ++ membersText m))

end

def marshal (v : Value) : Res Bytes :=
  if v.supported then .ok v.text else .err (.new "json: unsupported value" [])

/-! ## Parsing -/

def isSpace (b : UInt8) : Bool := b = 32 || b = 9 || b = 10 || b = 13

def skipSpace (s : Bytes) : Bytes := s.dropWhile isSpace

def expect (c : UInt8) (s : Bytes) : Option Bytes :=
  match skipSpace s with
  | [] => none
  | b :: s => if b = c then some s else none

def dropWord (word s : Bytes) : Option Bytes :=
  if s.take word.length = word then some (s.drop word.length) else none

def wholeLiteral (literal : Bytes) : Bool := literal.all fun c => c ≠ 46 && c ≠ 69 && c ≠ 101

mutual

/-- A value off the head of a text; `depth` is how much deeper it may nest. -/
def parseValue : Nat → Nat → Bytes → Option (Json × Bytes)
  | 0, _, _ => none
  | fuel + 1, depth, s =>
    match skipSpace s with
    | [] => none
    | c :: s =>
      if c = 110 then (dropWord (Go.str "ull") s).map fun s => (.null, s)
      else if c = 116 then (dropWord (Go.str "rue") s).map fun s => (.bool true, s)
      else if c = 102 then (dropWord (Go.str "alse") s).map fun s => (.bool false, s)
      else if c = 34 then (lexString s.length s).map fun p => (.str (unquote p.1), p.2)
      else if c = 91 then
        match depth with
        | 0 => none
        | depth + 1 =>
          match expect 93 s with
          | some s => some (.arr [], s)
          | none => (parseElems fuel depth s).map fun p => (.arr p.1, p.2)
      else if c = 123 then
        match depth with
        | 0 => none
        | depth + 1 =>
          match expect 125 s with
          | some s => some (.obj [], s)
          | none => (parseMembers fuel depth s).map fun p => (.obj p.1, p.2)
      else
        (scanNumber (c :: s)).map fun p =>
          (.num p.1 (wholeLiteral ((c :: s).take ((c :: s).length - p.2.length))), p.2)

def parseElems : Nat → Nat → Bytes → Option (List Json × Bytes)
  | 0, _, _ => none
  | fuel + 1, depth, s => do
    let (v, s) ← parseValue fuel depth s
    match expect 44 s with
    | some s =>
      let (l, s) ← parseElems fuel depth s
      return (v :: l, s)
    | none =>
      let s ← expect 93 s
      return ([v], s)

def parseMembers : Nat → Nat → Bytes → Option (List (Bytes × Json) × Bytes)
  | 0, _, _ => none
  | fuel + 1, depth, s => do
    let s ← expect 34 s
    let (units, s) ← lexString s.length s
    let s ← expect 58 s
    let (v, s) ← parseValue fuel depth s
    match expect 44 s with
    | some s =>
      let (m, s) ← parseMembers fuel depth s
      return ((unquote units, v) :: m, s)
    | none =>
      let s ← expect 125 s
      return ([(unquote units, v)], s)

end

def maxNestingDepth : Nat := 10000

def parse (s : Bytes) : Option Json := do
  let (v, rest) ← parseValue (2 * s.length + 2) maxNestingDepth s
  if skipSpace rest = [] then some v else none

/-! ## Decoding -/

mutual

/-- The value an `any` receives; none when a number is out of range. -/
def Json.toAny : Json → Option Value
  | .null => some .null
  | .bool b => some (.bool b)
  | .num d _ => (parseFloat d).map .num
  | .str s => some (.str s)
  | .arr l => (elemsToAny l).map .arr
  | .obj m => (membersToAny m).map fun m => .obj (assocOf m)

def elemsToAny : List Json → Option (List Value)
  | [] => some []
  | v :: l => do return (← v.toAny) :: (← elemsToAny l)

def membersToAny : List (Bytes × Json) → Option (List (Bytes × Value))
  | [] => some []
  | (k, v) :: m => do return (k, ← v.toAny) :: (← membersToAny m)

end

def decodeAny (s : Bytes) : Option Value := (parse s).bind Json.toAny

def unmarshal (s : Bytes) : Res Value :=
  match decodeAny s with
  | some v => .ok v
  | none => .err (.new "json: invalid input" [])

def unmarshalMap (s : Bytes) : Res (Map Value) :=
  match (parse s : Option Json) with
  | some .null => .ok Map.empty
  | some (.obj m) =>
    match membersToAny m with
    | some m => .ok ⟨assocOf m, keysSorted_assocOf m⟩
    | none => .err (.new "json: cannot unmarshal number" [])
  | some _ => .err (.new "json: cannot unmarshal into Go value of type map[string]interface" [])
  | none => .err (.new "json: invalid input" [])

def unmarshalSlice (s : Bytes) : Res (List Value) :=
  match (parse s : Option Json) with
  | some .null => .ok []
  | some (.arr l) =>
    match elemsToAny l with
    | some l => .ok l
    | none => .err (.new "json: cannot unmarshal number" [])
  | some _ => .err (.new "json: cannot unmarshal into Go value of type []interface" [])
  | none => .err (.new "json: invalid input" [])

end Go
