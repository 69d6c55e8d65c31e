import StreamEditor.Script.Prepare
import StreamEditor.Text.Encoding

namespace StreamEditor

inductive LineReader where
  | plain (source : List Text)
  | buffered (ahead : Option Text) (source : List Text)
  deriving DecidableEq, Repr

namespace LineReader

def openPlain (source : List Text) : LineReader := .plain source

def openBuffered (source : List Text) : LineReader := .buffered source.head? source.tail

def ofLines (asksLast : Bool) (source : List Text) : LineReader :=
  if asksLast then openBuffered source else openPlain source

def readLine : LineReader → Option Text × LineReader
  | plain source => (source.head?, plain source.tail)
  | buffered none source => (none, buffered none source)
  | buffered (some line) source => (some line, buffered source.head? source.tail)

def isLast : LineReader → Bool
  | plain _ => false
  | buffered ahead _ => ahead.isNone

end LineReader

/-- Where printed lines go besides the list of lines: nowhere, on a stream, or into a file, which may
be closed already and holds what was written once it is closed. -/
inductive Output where
  | silent
  | stream
  | file (name : Text) (closed : Bool) (written : Bytes)

structure Editor where
  pattern : Option Text := some []
  hold : Text := []
  program : Option Program := none
  reader : LineReader := .plain []
  lineNumber : Nat := 0
  output : Output := .silent
  printed : Array Text := #[]
  quiet : Bool := false
  extended : Bool := false
  substituted : Bool := false
  queue : List Text := []
  lastRegexp : Option Regexp := none
  ranges : List Nat := []

structure Trial where
  number : Nat
  selected : Bool
  pattern : Option Text
  hold : Text
  deriving DecidableEq, Repr

structure Machine where
  editor : Editor
  store : Store
  nextNumber : Nat := 1
  deferred : Bool := false
  trials : Array Trial := #[]
  trialLimit : Nat := 0

/-- Work that may fail; what was done before a failure stays done. -/
abbrev Edit := EStateM Failure Machine

namespace Edit

def lift {α : Type} (r : Except Failure α) : Edit α :=
  match r with
  | .ok a => pure a
  | .error e => throw e

def editor : Edit Editor := return (← get).editor

def update (f : Editor → Editor) : Edit Unit :=
  modify fun m => { m with editor := f m.editor }

def setPattern (t : Option Text) : Edit Unit := update fun e => { e with pattern := t }

def pattern : Edit Text := return ((← editor).pattern.getD [])

def setStore (s : Store) : Edit Unit := modify fun m => { m with store := s }

def readLine : Edit (Option Text) := do
  let e ← editor
  let (line, reader) := e.reader.readLine
  update fun e =>
    { e with
      reader, substituted := false,
      lineNumber := if line.isSome then e.lineNumber + 1 else e.lineNumber }
  return line.map Text.chomp

def unencodable? (line : Text) : Option (Char × Nat × Nat) :=
  let start := (line.takeWhile Text.isLatin1).length
  match line.drop start with
  | [] => none
  | c :: rest => some (c, start, start + 1 + (rest.takeWhile (!Text.isLatin1 ·)).length)

/-- A printed line. A closed file takes no line, and none takes one that is no Latin-1. -/
def print (line : Text) : Edit Unit := do
  update fun e => { e with printed := e.printed.push line }
  match (← editor).output with
  | .silent | .stream => return
  | .file name closed written =>
    if closed then throw .outputClosed
    else
      match unencodable? line with
      | some (c, start, stop) => throw (.unencodable c start stop)
      | none =>
        update fun e =>
          { e with output := .file name closed (written ++ Text.toLatin1 (line ++ ['\n'])) }

def closeOutput : Edit Unit := do
  match (← editor).output with
  | .file name false written =>
    modify fun m =>
      { m with
        store := m.store.put name written,
        editor := { m.editor with output := .file name true written } }
  | _ => return

def useRegexp (x : Option Regexp) : Edit Regexp := do
  match x with
  | some x =>
    update fun e => { e with lastRegexp := some x }
    return x
  | none =>
    match (← editor).lastRegexp with
    | some x => return x
    | none => throw (.fault .emptyRegexp)

def writeFile (name line : Text) : Edit Unit := do
  setStore (← lift ((← get).store.append name (Text.toUtf8 (line ++ ['\n']))))

end Edit

end StreamEditor
