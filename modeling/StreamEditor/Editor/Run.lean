import StreamEditor.Editor.State
import StreamEditor.Editor.Step
import StreamEditor.Script.Link

/-!
A script is loaded, and its program run. A script that can not be read leaves the program as it was; one
that can not be prepared has replaced it already. A run is made of cycles: the commands from the first on,
then the pattern space if it is printed, the queued texts, and the next line. The command tried last
decides how the cycle ends.
-/

namespace StreamEditor

open Edit

def asksQuiet (lines : List Text) : Bool := lines.head?.any (['#', 'n'].isPrefixOf ·)

def readProgram (lines : List Text) : Edit Program := fun m =>
  match Script.program lines m.nextNumber with
  | .ok p n => .ok p { m with nextNumber := n }
  | .error e n => .error e { m with nextNumber := n }

def settle {α : Type} (a : Attempt α) (keep : α → Edit Unit) : Edit Unit := do
  keep a.value
  match a.failure with
  | none => return
  | some e => throw e

def install (lines : List Text) : Edit Unit := do
  let program ← readProgram lines
  let m ← get
  let prepared := program.prepare ⟨m.editor.extended, m.deferred⟩
  settle prepared fun p => update fun e => { e with program := some p, ranges := [] }
  settle (prepared.value.createFiles (← get).store) setStore

def loadLines (lines : List Text) : Edit Unit := do
  if asksQuiet lines then update fun e => { e with quiet := true }
  install (Script.pack lines)

def loadText (script : Text) : Edit Unit := loadLines (Text.splitLines script)

def loadFile (name : Text) : Edit Unit := do
  match (← get).store.read name with
  | .ok bytes => loadLines (Text.records (Text.normalizeNewlines (Text.ofLatin1 bytes)))
  | .error _ => throw (.fault (.unreadable name))

def flushQueue : Edit Unit := do
  (← editor).queue.forM print
  update fun e => { e with queue := [] }

def showCycle (last : Command) : Edit Unit := do
  let e ← editor
  if !e.quiet && last.action ≠ .deleteFirst then e.pattern.forM print
  flushQueue

def nextCycle (last : Command) : Edit Bool := do
  if last.action ≠ .deleteFirst then setPattern (← readLine)
  closeOutput
  return (← editor).pattern.isSome

def endCycle (last : Command) (selected : Bool) : Edit Bool := do
  showCycle last
  if last.action = .quit && selected then return false else nextCycle last

def record (c : Command) (selected : Bool) : Edit Unit :=
  modify fun m =>
    if m.trials.size < m.trialLimit then
      { m with trials := m.trials.push ⟨c.number, selected, m.editor.pattern, m.editor.hold⟩ }
    else m

/-- The command at a position is tried, and the cycle ended if none follows it: the position of the
command that is tried next, if there is one. -/
def turn (program : Program) (i : Nat) : Edit (Option Nat) := do
  match program[i]? with
  | none => return none
  | some c =>
    let (selected, flow) ← c.attempt i
    record c selected
    match c.follow flow with
    | some j => return some j
    | none => if ← endCycle c selected then return some 0 else return none

def runFrom (program : Program) : Nat → Nat → Edit Unit
  | 0, _ => throw .outOfSteps
  | budget + 1, i => do
    match ← turn program i with
    | some j => runFrom program budget j
    | none => return

inductive Source where
  | text (t : Text)
  | file (name : Text)

def Source.lines (store : Store) : Source → Except Failure (List Text)
  | text t => .ok (Text.records t)
  | file name =>
    match store.read name with
    | .ok bytes => .ok (Text.records (Text.normalizeNewlines (Text.ofLatin1 bytes)))
    | .error e => .error (if e.isFileSystem then .fault (.unopenable name) else e)

inductive Destination where
  | nowhere
  | stream
  | file (name : Text)

def openOutput : Destination → Edit Unit
  | .nowhere => update fun e => { e with output := .silent }
  | .stream => update fun e => { e with output := .stream }
  | .file name => do
    let name ← lift (Store.locate name)
    modify fun m =>
      { m with
        store := m.store.put name [],
        editor := { m.editor with output := .file name false [] } }

/-- Source and destination of a run are opened, and the first line is read; is there one? All lines of
a file are taken here, before the destination is opened: a run that writes its own source is not
followed line by line. -/
def start (program : Program) (source : Source) (destination : Destination) : Edit Bool := do
  let lines ← lift (source.lines (← get).store)
  update fun e =>
    { e with reader := .ofLines program.asksLast lines, lineNumber := 0, printed := #[] }
  openOutput destination
  let line ← readLine
  setPattern line
  return line.isSome

def apply (budget : Nat) (source : Source) (destination : Destination) : Edit Unit := do
  match (← editor).program with
  | none => throw .noProgram
  | some program => if ← start program source destination then runFrom program budget 0

end StreamEditor
