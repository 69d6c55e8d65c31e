import StreamEditor.Json.Value
import StreamEditor.Numeral.Binary

namespace StreamEditor.Json

inductive Problem where
  | value
  | propertyName
  | colon
  | comma
  | unterminatedString
  | controlCharacter
  | escape
  | codeEscape
  | extraData
  deriving DecidableEq, Repr

def Problem.message : Problem → String
  | value => "Expecting value"
  | propertyName => "Expecting property name enclosed in double quotes"
  | colon => "Expecting ':' delimiter"
  | comma => "Expecting ',' delimiter"
  | unterminatedString => "Unterminated string starting at"
  | controlCharacter => "Invalid control character at"
  | escape => "Invalid \\escape"
  | codeEscape => "Invalid \\uXXXX escape"
  | extraData => "Extra data"

structure Trouble where
  problem : Problem
  left : Nat
  deriving DecidableEq, Repr

def fail {α : Type} (problem : Problem) (t : Text) : Except Trouble α := .error ⟨problem, t.length⟩

def isSpace (c : Char) : Bool := c = ' ' || c = '\t' || c = '\n' || c = '\r'

def skip (t : Text) : Text := t.dropWhile isSpace

def hexValue? (c : Char) : Option Nat :=
  if Text.isAsciiDigit c then some (Text.digitValue c)
  else if 'a' ≤ c ∧ c ≤ 'f' then some (c.toNat - 'a'.toNat + 10)
  else if 'A' ≤ c ∧ c ≤ 'F' then some (c.toNat - 'A'.toNat + 10)
  else none

def readCode : Text → Option (Nat × Text)
  | a :: b :: c :: d :: rest => do
    let n := ((← hexValue? a) * 16 + (← hexValue? b)) * 16 + (← hexValue? c)
    some (n * 16 + (← hexValue? d), rest)
  | _ => none

def plainEscape? : Char → Option Char
  | '"' => some '"'
  | '\\' => some '\\'
  | '/' => some '/'
  | 'b' => some (Char.ofNat 8)
  | 'f' => some (Char.ofNat 12)
  | 'n' => some '\n'
  | 'r' => some '\r'
  | 't' => some '\t'
  | _ => none

def readLowCode (high : Nat) : Text → Option (Char × Text)
  | '\\' :: 'u' :: rest =>
    match readCode rest with
    | some (low, rest) =>
      if 0xdc00 ≤ low ∧ low < 0xe000 then
        some (Char.ofNat (0x10000 + (high - 0xd800) * 1024 + (low - 0xdc00)), rest)
      else none
    | none => none
  | _ => none

def readString (start : Nat) : Nat → Text → Text → Except Trouble (Text × Text)
  | 0, _, t => fail .unterminatedString t
  | _ + 1, _, [] => .error ⟨.unterminatedString, start⟩
  | _ + 1, read, '"' :: rest => .ok (read.reverse, rest)
  | fuel + 1, read, '\\' :: 'u' :: rest =>
    match readCode rest with
    | none => fail .codeEscape ('u' :: rest)
    | some (n, after) =>
      if 0xd800 ≤ n ∧ n < 0xdc00 then
        match readLowCode n after with
        | some (c, after) => readString start fuel (c :: read) after
        | none => readString start fuel (Char.ofNat 0xfffd :: read) after
      else readString start fuel (Char.ofNat n :: read) after
  | _ + 1, _, ['\\'] => .error ⟨.unterminatedString, start⟩
  | fuel + 1, read, '\\' :: c :: rest =>
    match plainEscape? c with
    | some d => readString start fuel (d :: read) rest
    | none => fail .escape ('\\' :: c :: rest)
  | fuel + 1, read, c :: rest =>
    if c.toNat < 32 then fail .controlCharacter (c :: rest)
    else readString start fuel (c :: read) rest

def numberParts (t : Text) : Option (Text × Text × Text × Text) :=
  let whole :=
    match t with
    | '0' :: _ => ['0']
    | t => t.takeWhile Text.isAsciiDigit
  if whole.isEmpty then none
  else
    let rest := t.drop whole.length
    let fraction :=
      match rest with
      | '.' :: more =>
        let digits := more.takeWhile Text.isAsciiDigit
        if digits.isEmpty then [] else '.' :: digits
      | _ => []
    let rest := rest.drop fraction.length
    let exponent :=
      match rest with
      | e :: more =>
        let marked := if more.head? = some '-' || more.head? = some '+' then more.take 1 else []
        let digits := (more.drop marked.length).takeWhile Text.isAsciiDigit
        if (e = 'e' ∨ e = 'E') ∧ !digits.isEmpty then e :: marked ++ digits else []
      | [] => []
    some (whole, fraction, exponent, rest.drop exponent.length)

def readNumber (t : Text) : Option (Json × Text) :=
  let (negative, digits) :=
    match t with
    | '-' :: rest => (true, rest)
    | t => (false, t)
  match numberParts digits with
  | none => none
  | some (whole, [], [], rest) =>
    let n : Int := Text.toNumber whole
    some (.integer (if negative then -n else n), rest)
  | some (whole, fraction, exponent, rest) =>
    let signed := (if negative then ['-'] else []) ++ whole ++ fraction ++ exponent
    (Binary.ofText? signed).map fun x => (.real x, rest)

def constants : List (String × Json) :=
  [("null", .null), ("true", .bool true), ("false", .bool false), ("NaN", .real .nan),
    ("Infinity", .real (.infinite false)), ("-Infinity", .real (.infinite true))]

def readScalar (t : Text) : Except Trouble (Json × Text) :=
  match constants.find? fun c => c.1.toList.isPrefixOf t with
  | some (name, v) => .ok (v, t.drop name.length)
  | none =>
    match readNumber t with
    | some r => .ok r
    | none => fail .value t

mutual

def readValue : Nat → Text → Except Trouble (Json × Text)
  | 0, t => fail .value t
  | fuel + 1, t =>
    match t with
    | '"' :: rest => do
      let (s, rest) ← readString t.length rest.length.succ [] rest
      .ok (.string s, rest)
    | '\x7b' :: rest =>
      match skip rest with
      | '\x7d' :: rest => .ok (.object [], rest)
      | rest => readMembers fuel [] rest
    | '[' :: rest =>
      match skip rest with
      | ']' :: rest => .ok (.array [], rest)
      | rest => readItems fuel [] rest
    | t => readScalar t

def readItems : Nat → List Json → Text → Except Trouble (Json × Text)
  | 0, _, t => fail .value t
  | fuel + 1, read, t => do
    let (v, rest) ← readValue fuel t
    match skip rest with
    | ']' :: rest => .ok (.array (v :: read).reverse, rest)
    | ',' :: rest => readItems fuel (v :: read) (skip rest)
    | rest => fail .comma rest

def readMembers : Nat → List (Text × Json) → Text → Except Trouble (Json × Text)
  | 0, _, t => fail .value t
  | fuel + 1, read, t =>
    match t with
    | '"' :: rest => do
      let (name, rest) ← readString t.length rest.length.succ [] rest
      match skip rest with
      | ':' :: rest =>
        let (v, rest) ← readValue fuel (skip rest)
        let read := insert read name v
        match skip rest with
        | '\x7d' :: rest => .ok (.object read, rest)
        | ',' :: rest => readMembers fuel read (skip rest)
        | rest => fail .comma rest
      | rest => fail .colon rest
    | t => fail .propertyName t

end

def parse (t : Text) : Except Trouble Json := do
  let (v, rest) ← readValue (2 * t.length + 2) (skip t)
  match skip rest with
  | [] => .ok v
  | rest => fail .extraData rest

def Trouble.message (t : Text) (e : Trouble) : Text :=
  let position := t.length - e.left
  let before := t.take position
  let column := (before.reverse.takeWhile (· ≠ '\n')).length + 1
  e.problem.message.toList ++ ": line ".toList ++ Text.ofNumber (before.count '\n' + 1) ++
    " column ".toList ++ Text.ofNumber column ++ " (char ".toList ++ Text.ofNumber position ++ [')']

end StreamEditor.Json
