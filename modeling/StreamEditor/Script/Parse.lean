import StreamEditor.Script.Arguments
import StreamEditor.Text.Basic

/-!
Reading commands. Every command that is made gets the next number, whether or not the rest of the
script can be read.
-/

namespace StreamEditor.Script

def dropComment (line : Text) : Text :=
  match line.dropWhile Text.isBlank with
  | '#' :: rest => rest.dropWhile (· ≠ '\n')
  | _ => line

def continues (line : Text) : Bool := line.getLast? = some '\\'

def joinFrom (current : Text) : List Text → List Text
  | [] => [if continues current then current.dropLast ++ ['\n'] else current]
  | line :: lines =>
    if continues current then joinFrom (current.dropLast ++ '\n' :: line) lines
    else current :: joinFrom line lines

def pack (lines : List Text) : List Text :=
  match lines.map fun line => Text.trimRight (dropComment line) with
  | [] => []
  | line :: rest => joinFrom line rest

abbrev Reading := EStateM Failure Nat

def Reading.lift {α : Type} (r : Except Failure α) : Reading α :=
  match r with
  | .ok a => pure a
  | .error e => throw e

def plainAction? (c : Char) : Option Action :=
  [Action.delete, .deleteFirst, .lineNumber, .get, .getAppend, .hold, .holdAppend, .list, .next,
    .nextAppend, .print, .printFirst, .quit, .exchange].find? (·.letter = c)

def wordAction? (c : Char) : Option (Text → Action) :=
  [Action.label, .branch, .test, .read, .write].find? fun f => (f []).letter = c

def textAction? (c : Char) : Option (Text → Action) :=
  [Action.append, .insert, .change].find? fun f => (f []).letter = c

def isFunction (c : Char) : Bool :=
  (plainAction? c).isSome || (wordAction? c).isSome || (textAction? c).isSome ||
    ['{', '}', 's', 'y'].contains c

def action (line : Text) (i : Nat) (c : Char) : Except Failure (Nat × Action) :=
  if c = '{' then .ok (i, .openBlock)
  else if c = '}' then .ok (i, .closeBlock)
  else if c = 's' then (substitution line i).map fun (i, s) => (i, .substitute s)
  else if c = 'y' then (transliteration line i).map fun (i, y) => (i, .transliterate y)
  else
    match textAction? c with
    | some f => .ok ((textArgument line i).1, f (textArgument line i).2)
    | none =>
      match wordAction? c with
      | some f => (argument line i).map fun (i, word) => (i, f word)
      | none => do
        let (i, word) ← argument line i
        if word.isEmpty then
          match plainAction? c with
          | some a => .ok (i, a)
          | none => .error (.fault (.unknownFunction c))
        else .error (.fault (.argumentsNotAllowed c word))

def addressesFit (c : Char) (first second : Option Address) : Bool :=
  !((c = ':' || c = '}') && first.isSome || c = 'q' && second.isSome)

def command (line : Text) : Reading (Nat × Option Command) := do
  let (i, first, second, negated) ← Reading.lift (addresses line 0)
  match function line i with
  | (i, some c) =>
    if c = '#' || c = ';' then
      if first.isSome then throw (.fault .unterminatedCommand) else pure (i, none)
    else if !isFunction c then throw (.fault (.unknownFunction c))
    else if !addressesFit c first second then throw (.fault .wrongAddressCount)
    else
      let number ← get
      set (number + 1)
      let (i, a) ← Reading.lift (action line i c)
      pure (i, some ⟨number, first, second, negated, a, none, none⟩)
  | (i, none) => if first.isSome then throw (.fault .unterminatedCommand) else pure (i, none)

def lineCommands (line : Text) : Reading (List Command) :=
  match line with
  | [] => pure []
  | c :: rest => do
    let (i, first) ← command (c :: rest)
    let more ← lineCommands (rest.drop (i - 1))
    pure (first.toList ++ more)
termination_by line.length
decreasing_by simp only [List.length_drop, List.length_cons]; omega

def commands : List Text → Reading (List Command)
  | [] => pure []
  | line :: lines => do
    let first ← lineCommands line
    let more ← commands lines
    pure (first ++ more)

end StreamEditor.Script
