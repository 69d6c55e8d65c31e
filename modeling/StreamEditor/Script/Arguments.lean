import StreamEditor.Script.Command
import StreamEditor.Script.Scan

namespace StreamEditor.Script

def address (text : Text) (i : Nat) : Except Failure (Nat × Option Address) := do
  let (i, n) ← number text i
  match n with
  | some (n + 1) => .ok (i, some (.line (n + 1)))
  | _ =>
    if text[i]? = some '$' then .ok (i + 1, some .last)
    else
      let (i, source) ←
        if text[i]? = some '\\' then regexp text (i + 1) none else regexp text i (some '/')
      match source with
      | none => .ok (i, none)
      | some source =>
        if text[i]? = some 'I' then .ok (i + 1, some (.regexp source true none))
        else .ok (i, some (.regexp source false none))

def addresses (text : Text) (i : Nat) :
    Except Failure (Nat × Option Address × Option Address × Bool) := do
  let (i, first) ← address text (skipBlanks text i)
  let i := skipBlanks text i
  let (i, second) ←
    if text[i]? = some ',' then
      if first.isNone then throw (.fault .incorrectRange)
      else
        let (i, second) ← address text (skipBlanks text (i + 1))
        if second.isNone then throw (.fault .incorrectRange)
        else pure (i, second)
    else pure (i, none)
  let i := skipBlanks text i
  if text[i]? = some '!' then .ok (i + 1, first, second, true)
  else .ok (i, first, second, false)

def argument (text : Text) (i : Nat) : Except Failure (Nat × Text) := tail text (skipBlanks text i)

def textArgument (text : Text) (i : Nat) : Nat × Text :=
  let i := skipBlanks text i
  let i := if text[i]? = some '\\' then i + 1 else i
  (text.length, Text.replacePair '\\' 'n' '\n' (text.drop i))

def isFlag (c : Char) : Bool := ['p', 'g', 'i', 'I'].contains c || Text.isAsciiDigit c

def flagFile (flags rest : Text) : Except Failure (Option Text) :=
  match rest with
  | [] => .ok none
  | 'w' :: ' ' :: name =>
    if name.contains '\n' then .error (.fault (.incorrectFlags flags)) else .ok (some name)
  | _ => .error (.fault (.incorrectFlags flags))

def flagCount (flags : Text) : Except Failure Nat :=
  match (flags.dropWhile (!Text.isAsciiDigit ·)).takeWhile Text.isAsciiDigit with
  | [] => .ok (if flags.contains 'g' then 0 else 1)
  | ds =>
    if flags.contains 'g' then .error (.fault .globalAndNumber)
    else if Text.digitLimit < ds.length then .error (.tooManyDigits ds.length)
    else .ok (Text.toNumber ds)

def substitution (text : Text) (i : Nat) : Except Failure (Nat × Substitution) := do
  let (i, pattern) ← regexp text i none
  match charBefore text i with
  | none => throw .stringIndex
  | some delim =>
    let (i, new) ← replacement text i delim
    let (i, flags) ← tail text i
    let letters := flags.takeWhile isFlag
    let file ← flagFile flags (flags.dropWhile isFlag)
    let count ← flagCount letters
    .ok (i, ⟨pattern, new.getD [], count, letters.contains 'p',
      letters.contains 'i' || letters.contains 'I', file.isSome, Text.trim (file.getD []),
      .pending⟩)

def transliterationPart (text : Text) (i : Nat) (sep : Char) : Except Failure (Nat × Text) :=
  match delimiter? sep (text.drop i) with
  | some n => .ok (i + n + 1, (text.drop i).take n)
  | none => .error (.fault .transliterationUnterminated)

def transliteration (text : Text) (i : Nat) : Except Failure (Nat × Transliteration) :=
  if text.isEmpty then .error (.fault .transliterationUnterminated)
  else
    match text[i]? with
    | none => .error .stringIndex
    | some sep => do
      let (i, source) ← transliterationPart text (i + 1) sep
      let (i, dest) ← transliterationPart text i sep
      let (i, rest) ← tail text i
      if (Text.trim rest).isEmpty then .ok (i, ⟨source, dest, none⟩)
      else .error (.fault .transliterationExtra)

end StreamEditor.Script
