import StreamEditor.Numeral.Binary
import StreamEditor.Numeral.Printing
import StreamEditor.Text.Basic

namespace StreamEditor

inductive Json where
  | null
  | bool (b : Bool)
  | integer (n : Int)
  | real (x : Binary)
  | string (t : Text)
  | array (vs : List Json)
  | object (ms : List (Text × Json))

namespace Json

def insert (ms : List (Text × Json)) (name : Text) (value : Json) : List (Text × Json) :=
  if ms.any (·.1 = name) then ms.map fun m => if m.1 = name then (name, value) else m
  else ms ++ [(name, value)]

def members : Json → List (Text × Json)
  | object ms => ms
  | _ => []

def items : Json → List Json
  | array vs => vs
  | _ => []

def get? (v : Json) (name : String) : Option Json := v.members.lookup name.toList

def text? : Json → Option Text
  | string t => some t
  | _ => none

def number? : Json → Option Binary
  | integer n => some (Binary.ofInteger n)
  | real x => some x
  | _ => none

def integer? : Json → Option Int
  | integer n => some n
  | _ => none

def escapeCode (n : Nat) : Text := '\\' :: 'u' :: Text.hexDigits 4 n

def escapeChar (c : Char) : Text :=
  let n := c.toNat
  if c = '"' then ['\\', '"']
  else if c = '\\' then ['\\', '\\']
  else if c = '\n' then ['\\', 'n']
  else if c = '\r' then ['\\', 'r']
  else if c = '\t' then ['\\', 't']
  else if n = 8 then ['\\', 'b']
  else if n = 12 then ['\\', 'f']
  else if 32 ≤ n ∧ n < 127 then [c]
  else if n < 0x10000 then escapeCode n
  else escapeCode (0xd800 + (n - 0x10000) / 1024) ++ escapeCode (0xdc00 + (n - 0x10000) % 1024)

def quote (t : Text) : Text := '"' :: t.flatMap escapeChar ++ ['"']

def realText : Binary → Text
  | .infinite negative => Binary.sign negative ++ "Infinity".toList
  | .nan => "NaN".toList
  | x => x.text

mutual

def text : Json → Text
  | null => "null".toList
  | bool b => if b then "true".toList else "false".toList
  | integer n => Text.ofInteger n
  | real x => realText x
  | string t => quote t
  | array vs => '[' :: itemsText vs ++ [']']
  | object ms => '\x7b' :: membersText ms ++ ['\x7d']

def itemsText : List Json → Text
  | [] => []
  | [v] => v.text
  | v :: vs => v.text ++ ',' :: ' ' :: itemsText vs

def membersText : List (Text × Json) → Text
  | [] => []
  | [(name, v)] => quote name ++ ':' :: ' ' :: v.text
  | (name, v) :: ms => quote name ++ ':' :: ' ' :: v.text ++ ',' :: ' ' :: membersText ms

end

end Json

end StreamEditor
