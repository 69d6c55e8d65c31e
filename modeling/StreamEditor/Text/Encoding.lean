import StreamEditor.Text.Basic

namespace StreamEditor.Text

def ofLatin1 (bytes : Bytes) : Text := bytes.map fun b => Char.ofNat b.toNat

def isLatin1 (c : Char) : Bool := c.toNat < 256

def toLatin1 (t : Text) : Bytes := t.map fun c => UInt8.ofNat c.toNat

def toUtf8 (t : Text) : Bytes := t.flatMap String.utf8EncodeChar

namespace Utf8

def announced (b : UInt8) : Option (Nat × Nat × Nat) :=
  let n := b.toNat
  if 0xc2 ≤ n ∧ n ≤ 0xdf then some (2, 0x80, 0xbf)
  else if n = 0xe0 then some (3, 0xa0, 0xbf)
  else if n = 0xed then some (3, 0x80, 0x9f)
  else if 0xe1 ≤ n ∧ n ≤ 0xef then some (3, 0x80, 0xbf)
  else if n = 0xf0 then some (4, 0x90, 0xbf)
  else if 0xf1 ≤ n ∧ n ≤ 0xf3 then some (4, 0x80, 0xbf)
  else if n = 0xf4 then some (4, 0x80, 0x8f)
  else none

inductive Head where
  | char (c : Char) (size : Nat)
  | invalid (distance : Nat)
  | incomplete

def tailBits (b : UInt8) : Nat := b.toNat % 64

def isTail (b : UInt8) : Bool := 0x80 ≤ b.toNat && b.toNat ≤ 0xbf

def head (b : UInt8) (rest : Bytes) : Head :=
  if b.toNat < 0x80 then .char (Char.ofNat b.toNat) 1
  else
    match announced b, rest with
    | none, _ => .invalid 0
    | some _, [] => .incomplete
    | some (size, lo, hi), b1 :: rest =>
      if b1.toNat < lo ∨ hi < b1.toNat then .invalid 1
      else if size = 2 then .char (Char.ofNat (b.toNat % 32 * 64 + tailBits b1)) 2
      else
        match rest with
        | [] => .incomplete
        | b2 :: rest =>
          if !isTail b2 then .invalid 2
          else if size = 3 then
            .char (Char.ofNat ((b.toNat % 16 * 64 + tailBits b1) * 64 + tailBits b2)) 3
          else
            match rest with
            | [] => .incomplete
            | b3 :: _ =>
              if !isTail b3 then .invalid 3
              else
                .char (Char.ofNat
                  (((b.toNat % 8 * 64 + tailBits b1) * 64 + tailBits b2) * 64 + tailBits b3)) 4

structure Decoded where
  text : Text
  fault : Option Nat

def decodeFrom (offset : Nat) (bytes : Bytes) : Decoded :=
  match bytes with
  | [] => ⟨[], none⟩
  | b :: rest =>
    match head b rest with
    | .char c size =>
      let more := decodeFrom (offset + size) (rest.drop (size - 1))
      ⟨c :: more.text, more.fault⟩
    | .invalid distance => ⟨[], some (offset + distance)⟩
    | .incomplete => ⟨[], some (offset + 1 + rest.length)⟩
termination_by bytes.length
decreasing_by simp only [List.length_drop, List.length_cons]; omega

end Utf8

def decodeUtf8 (bytes : Bytes) : Utf8.Decoded := Utf8.decodeFrom 0 bytes

def normalizeNewlines : Text → Text
  | '\r' :: '\n' :: rest => '\n' :: normalizeNewlines rest
  | '\r' :: rest => '\n' :: normalizeNewlines rest
  | c :: rest => c :: normalizeNewlines rest
  | [] => []

def records : Text → List Text
  | [] => []
  | c :: cs =>
    if c = '\n' then [c] :: records cs
    else
      match records cs with
      | [] => [[c]]
      | r :: rs => (c :: r) :: rs

def completeRecords (t : Text) : List Text := (records t).filter fun r => r.getLast? = some '\n'

def chomp (line : Text) : Text := dropTrailing (fun c => c = '\r' || c = '\n') line

def chunkSize : Nat := 8192

/-- The lines of a file of UTF-8. If it has a fault, only those that end before the piece with the
fault; a carriage return at the end of a piece may still be half a terminator. -/
def utf8Records (bytes : Bytes) : List Text :=
  match (decodeUtf8 bytes).fault with
  | none => records (normalizeNewlines (decodeUtf8 bytes).text)
  | some offset =>
    let sound :=
      if offset = bytes.length then (decodeUtf8 bytes).text
      else (decodeUtf8 (bytes.take (offset / chunkSize * chunkSize))).text
    let sound := if sound.getLast? = some '\r' then sound.dropLast else sound
    completeRecords (normalizeNewlines sound)

end StreamEditor.Text
