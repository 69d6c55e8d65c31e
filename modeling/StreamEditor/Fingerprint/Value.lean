import StreamEditor.Fingerprint.Digest
import StreamEditor.Numeral.Printing
import StreamEditor.Text.Encoding

/-!
Values and their fingerprints: a value is written as bytes, and the digest of the bytes tells values
apart. Real numbers are written with six digits, so that the last ones do not count.
-/

namespace StreamEditor.Fingerprint

inductive ByteKind where
  | plain
  | mutable
  | view
  deriving DecidableEq, Repr

inductive Value where
  | none
  | bool (b : Bool)
  | integer (n : Int)
  | real (x : Binary)
  | complex (re im : Binary)
  | text (t : Text)
  | bytes (kind : ByteKind) (bs : Bytes)
  | list (vs : List Value)
  | tuple (vs : List Value)
  | set (vs : List Value)
  | frozenSet (vs : List Value)
  | dictionary (ms : List (Value × Value))
  | other (className text : Text)
  | record (fields : List (Text × Value))
  deriving Inhabited

namespace Value

def className : Value → Text
  | none => "NoneType".toList
  | bool _ => "bool".toList
  | integer _ => "int".toList
  | real _ => "float".toList
  | complex .. => "complex".toList
  | text _ => "str".toList
  | bytes .plain _ => "bytes".toList
  | bytes .mutable _ => "bytearray".toList
  | bytes .view _ => "memoryview".toList
  | list _ => "list".toList
  | tuple _ => "tuple".toList
  | set _ => "set".toList
  | frozenSet _ => "frozenset".toList
  | dictionary _ => "dict".toList
  | other name _ => name
  | record _ => "P".toList

def ascii (s : String) : Bytes := Text.toUtf8 s.toList

def significantDigits : Nat := 6

def realBytes (x : Binary) : Bytes :=
  match x.roundDigits significantDigits with
  | .finite _ 0 _ => ascii "0.0"
  | y => Text.toUtf8 y.text

def deepest : Nat := 8

def longest : Nat := 2000

def lengthBytes (tag : String) (n : Nat) : Bytes := ascii tag ++ Text.toUtf8 (Text.ofNumber n)

/-- What stands in no order is put in the order of its fingerprints. -/
def inOrder (parts : List (Text × Bytes)) : Bytes :=
  ((parts.mergeSort fun a b => !(b.1 < a.1)).take longest).flatMap (·.2)

mutual

def bytesAt (depth : Nat) : Value → Bytes
  | none => ascii "None"
  | bool b => ascii (if b then "True" else "False")
  | integer n => Text.toUtf8 (Text.ofInteger n)
  | real x => realBytes x
  | complex re im => ascii "c" ++ realBytes re ++ realBytes im
  | text t => Text.toUtf8 ('s' :: t)
  | bytes _ bs => bs
  | list vs | tuple vs => lengthBytes "L" vs.length ++ itemBytes depth longest vs
  | set vs | frozenSet vs => lengthBytes "S" vs.length ++ inOrder (memberParts depth vs)
  | dictionary ms => lengthBytes "D" ms.length ++ inOrder (pairParts depth ms)
  | other name t => Text.toUtf8 (name ++ t)
  | record fields => ascii "P" ++ fieldBytes depth fields

def itemBytes (depth : Nat) : Nat → List Value → Bytes
  | 0, _ => []
  | _, [] => []
  | n + 1, v :: vs =>
    (if deepest ≤ depth then [] else v.bytesAt (depth + 1)) ++ itemBytes depth n vs

def memberParts (depth : Nat) : List Value → List (Text × Bytes)
  | [] => []
  | v :: vs =>
    (Digest.digest (v.bytesAt 0), if deepest ≤ depth then [] else v.bytesAt (depth + 1)) ::
      memberParts depth vs

def pairParts (depth : Nat) : List (Value × Value) → List (Text × Bytes)
  | [] => []
  | (k, v) :: ms =>
    (Digest.digest (k.bytesAt 0),
        if deepest ≤ depth then [] else k.bytesAt (depth + 1) ++ v.bytesAt (depth + 1)) ::
      pairParts depth ms

def fieldBytes (depth : Nat) : List (Text × Value) → Bytes
  | [] => []
  | (name, v) :: fields =>
    Text.toUtf8 name ++ (if deepest ≤ depth then [] else v.bytesAt (depth + 1)) ++
      fieldBytes depth fields

end

def encode (v : Value) : Bytes := v.bytesAt 0

def fingerprint (v : Value) : Text := Digest.digest v.encode

end Value

end StreamEditor.Fingerprint
