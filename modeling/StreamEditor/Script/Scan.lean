import StreamEditor.Dialect
import StreamEditor.Failure

/-!
Scanning a line of a script from a position on. Each scanner gives the position after what it took.
-/

namespace StreamEditor.Script

def skipBlanks (text : Text) (i : Nat) : Nat := i + ((text.drop i).takeWhile Text.isBlank).length

def number (text : Text) (i : Nat) : Except Failure (Nat × Option Nat) :=
  match (text.drop i).takeWhile Text.isAsciiDigit with
  | [] => .ok (i, none)
  | ds =>
    if Text.digitLimit < ds.length then .error (.tooManyDigits ds.length)
    else .ok (i + ds.length, some (Text.toNumber ds))

def delimiter? (delim : Char) : Text → Option Nat
  | [] => none
  | [c] => if c = delim then some 0 else none
  | c :: d :: rest =>
    if c = delim then some 0
    else if c = '\\' then (delimiter? delim rest).map (· + 2)
    else (delimiter? delim (d :: rest)).map (· + 1)

def setEnd (text : Text) (i : Nat) : Except Failure Nat :=
  match Dialect.closingBracket? (text.drop i) with
  | some j => .ok (i + j)
  | none => .error (.fault .setNotClosed)

def regexpEnd (delim : Char) (t : Text) : Except Failure (Option Nat) :=
  match t with
  | [] => .ok none
  | c :: rest =>
    if c = delim then .ok (some 0)
    else if c = '\\' then (regexpEnd delim (rest.drop 1)).map (·.map (· + 2))
    else if c = '[' then
      match Dialect.closingBracket? (c :: rest) with
      | none => .error (.fault .setNotClosed)
      | some j => (regexpEnd delim (rest.drop j)).map (·.map (· + (j + 1)))
    else (regexpEnd delim rest).map (·.map (· + 1))
termination_by t.length
decreasing_by all_goals simp only [List.length_drop, List.length_cons]; omega

def regexp (text : Text) (i : Nat) (delim : Option Char) : Except Failure (Nat × Option Text) :=
  match text.drop i with
  | [] => .ok (i, none)
  | c :: body =>
    if delim.all (· = c) then do
      match ← regexpEnd c body with
      | some n => .ok (i + n + 2, some (body.take n))
      | none => .ok (i, none)
    else .ok (i, none)

def replacement (text : Text) (i : Nat) (delim : Char) : Except Failure (Nat × Option Text) :=
  if text.isEmpty then .ok (i, none)
  else
    match delimiter? delim (text.drop i) with
    | some n => .ok (i + n + 1, some ((text.drop i).take n))
    | none => .error (.fault .replacementIncomplete)

def isTerminator (c : Char) : Bool := c = ';' || c = '}' || c = '#'

/-- The rest of a command, without the white space at its end. A semicolon is taken with it, a comment
is dropped with the rest of the line, and a closing brace is left. -/
def tail (text : Text) (i : Nat) : Except Failure (Nat × Text) :=
  if text.length < i then .error .stringIndex
  else
    let t := text.drop i
    let taken := t.takeWhile (!isTerminator ·)
    let j := i + taken.length
    let stop :=
      match t.drop taken.length with
      | ';' :: _ => j + 1
      | '#' :: _ => text.length
      | _ => j
    .ok (stop, Text.trimRight taken)

def function (text : Text) (i : Nat) : Nat × Option Char :=
  match text.drop (skipBlanks text i) with
  | [] => (text.length, none)
  | c :: _ => if c = '#' then (text.length, some c) else (skipBlanks text i + 1, some c)

def charBefore (text : Text) (i : Nat) : Option Char :=
  if i = 0 then text.getLast? else text[i - 1]?

end StreamEditor.Script
