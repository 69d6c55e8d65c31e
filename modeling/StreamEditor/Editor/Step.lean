import StreamEditor.Editor.State
import StreamEditor.Text.Basic

namespace StreamEditor

def octalCode (n : Nat) : Text :=
  let digits := Text.padLeft '0' 3 (Nat.toDigits 8 n)
  digits.drop (digits.length - 3)

def visibleChar (c : Char) : Text :=
  if c = '\n' then ['\\', 'n']
  else if c = '\t' then ['\\', 't']
  else if 32 ≤ c.toNat ∧ c.toNat < 128 then [c]
  else '\\' :: octalCode c.toNat

def visible (t : Text) : Text := t.flatMap visibleChar ++ ['$']

def foldWidth : Nat := 69

def foldLine (t : Text) : List Text :=
  if t.length ≤ foldWidth + 1 then [t]
  else (t.take foldWidth ++ ['\\']) :: foldLine (t.drop foldWidth)
termination_by t.length
decreasing_by simp only [List.length_drop, foldWidth] at *; omega

open Edit

namespace Address

def selects : Address → Edit Bool
  | line n => return (← editor).lineNumber = n
  | last => return (← editor).reader.isLast
  | regexp _ _ prepared => do
    let x ← useRegexp prepared
    match x.search (← pattern) with
    | .ok found => return found
    | .error e => throw (.ofRegex e)

end Address

namespace Command

/-- A range starts at a line that its first address selects, and ends at the first later line that its
second address selects. -/
def inRange (i : Nat) (first second : Address) : Edit Bool := do
  if (← editor).ranges.contains i then
    if ← second.selects then update fun e => { e with ranges := e.ranges.erase i }
    return true
  else
    let found ← first.selects
    if found then update fun e => { e with ranges := i :: e.ranges }
    return found

def selected (i : Nat) (c : Command) : Edit Bool := do
  let found ←
    match c.first, c.second with
    | none, _ => pure true
    | some a, none => a.selects
    | some a, some b => inRange i a b
  return found != c.negated

end Command

def Substitution.execute (s : Substitution) : Edit Unit := do
  let x ←
    match s.target with
    | .pending => throw .substitutionUnprepared
    | .recalled => useRegexp none
    | .own x => useRegexp (some x)
  match ← lift (x.substitute? s.replacement s.count (← Edit.pattern)) with
  | none => return
  | some t =>
    update fun e => { e with pattern := some t, substituted := true }
    if s.print then Edit.print t
    if s.write then writeFile s.file t

def Transliteration.execute (y : Transliteration) : Edit Unit := do
  let t ← pattern
  match y.table with
  | some table => setPattern (some (table.apply t))
  | none => if t.isEmpty then return else throw .transliterationUnprepared

def fileLines (store : Store) (name : Text) : List Text :=
  match store.read name with
  | .ok bytes => (Text.utf8Records bytes).map fun r => r.filter (· ≠ '\n')
  | .error _ => []

def firstLine (t : Text) : Text := t.takeWhile (· ≠ '\n')

inductive Flow where
  | onward
  | branch
  | stop
  deriving DecidableEq, Repr

namespace Command

def perform (i : Nat) (c : Command) : Edit Flow := do
  match c.action with
  | .openBlock => return .branch
  | .closeBlock | .label _ => return .onward
  | .append t =>
    update fun e => { e with queue := e.queue ++ [t] }
    return .onward
  | .branch _ => return .branch
  | .change t =>
    if c.second.isNone || !(← editor).ranges.contains i then print t
    setPattern none
    return .stop
  | .delete =>
    setPattern none
    return .stop
  | .deleteFirst =>
    let t ← pattern
    if t.contains '\n' then setPattern (some ((t.dropWhile (· ≠ '\n')).drop 1))
    else
      setPattern (some [])
      setPattern (← readLine)
    return .stop
  | .lineNumber =>
    print (Text.ofNumber (← editor).lineNumber)
    return .onward
  | .get =>
    setPattern (some (← editor).hold)
    return .onward
  | .getAppend =>
    setPattern (some ((← pattern) ++ '\n' :: (← editor).hold))
    return .onward
  | .hold =>
    let t ← pattern
    update fun e => { e with hold := t }
    return .onward
  | .holdAppend =>
    let t ← pattern
    update fun e => { e with hold := e.hold ++ '\n' :: t }
    return .onward
  | .insert t =>
    print t
    return .onward
  | .list =>
    (foldLine (visible (← pattern))).forM print
    return .onward
  | .next =>
    if !(← editor).quiet then print (← pattern)
    let line ← readLine
    setPattern line
    return if line.isSome then .onward else .stop
  | .nextAppend =>
    match ← readLine with
    | none => return .stop
    | some line =>
      setPattern (some ((← pattern) ++ '\n' :: line))
      return .onward
  | .print =>
    print (← pattern)
    return .onward
  | .printFirst =>
    print (firstLine (← pattern))
    return .onward
  | .quit => return .stop
  | .read file =>
    let lines := fileLines (← get).store file
    update fun e => { e with queue := e.queue ++ lines }
    return .onward
  | .substitute s =>
    s.execute
    return .onward
  | .test _ =>
    if (← editor).substituted then
      update fun e => { e with substituted := false }
      return .branch
    else return .onward
  | .write file =>
    writeFile file (← pattern)
    return .onward
  | .exchange =>
    let t ← pattern
    update fun e => { e with pattern := some e.hold, hold := t }
    return .onward
  | .transliterate y =>
    y.execute
    return .onward

def attempt (i : Nat) (c : Command) : Edit (Bool × Flow) := do
  if ← c.selected i then return (true, ← c.perform i) else return (false, .onward)

def follow (c : Command) : Flow → Option Nat
  | .onward => c.next
  | .branch => c.branch
  | .stop => none

end Command

end StreamEditor
