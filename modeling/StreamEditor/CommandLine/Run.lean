import StreamEditor.CommandLine.Options
import StreamEditor.Session

namespace StreamEditor.CommandLine

def brief : Text := "sed.py - python sed module and command line utility - sed.godrago.net".toList

def version : Text := "1.00".toList

def lineText (lines : List Text) : Text := lines.flatMap (· ++ ['\n'])

def usage : Text :=
  lineText (["usage: ", "sed.py -h | -H | -v", "       [-n][-r] -f <file> <text file>",
    "       [-n][-r] -e <string> <text file>"].map String.toList)

def helpText : Text :=
  usage ++ lineText (["", "options:", "  -h         show this help message",
    "  -H         open html help page", "  -v         version", "  -f file    script in file",
    "  -e string  script in string", "  -n         print only if requested",
    "  -r         regexp extended"].map String.toList)

def helpFile : Text := "sed.html".toList

def helpAddress : Text := "http://sed.godrago.net/sed.html".toList

inductive Ending where
  | exit (code : Nat)
  | broken (f : Failure)
  deriving DecidableEq, Repr

structure Result where
  ending : Ending
  output : Text := []
  complaints : Text := []
  opened : List Text := []
  store : Store

def helpPage (store : Store) : Text :=
  if (store.lookup helpFile).isSome then helpFile else helpAddress

def load (o : Options) : Edit Unit :=
  if !o.scriptFile.isEmpty then loadFile o.scriptFile
  else if !o.script.isEmpty then loadText o.script
  else throw (.fault .tooFewArguments)

def source (o : Options) (input : Text) : Source :=
  match o.input with
  | some name => .file name
  | none => .text (Text.normalizeNewlines input)

def prepare (o : Options) : Edit (List Text) := do
  Edit.update fun e => { e with quiet := o.has .quiet, extended := o.has .extended }
  load o
  if o.has .list then listProgram else return []

def report (failure : Option Failure) (output : Text) (store : Store) : Result :=
  match failure with
  | none => { ending := .exit 0, output, store }
  | some (.fault f) =>
    { ending := .exit 1, output, complaints := f.message.toList ++ ['\n'], store }
  | some f => { ending := .broken f, output, store }

def failure? {α : Type} : Except Failure α → Option Failure
  | .ok _ => none
  | .error f => some f

def edit (budget : Nat) (store : Store) (input : Text) (o : Options) : Result :=
  let (prepared, session) := Session.perform { store } 0 0 (prepare o)
  match prepared.outcome with
  | .error f => report (some f) [] session.store
  | .ok table =>
    let (applied, session) := session.perform 0 0 (apply budget (source o input) .stream)
    report (failure? applied.outcome) (lineText (table ++ applied.editor.printed.toList))
      session.store

def run (budget : Nat) (store : Store) (input : Text) (words : List Text) : Result :=
  match Options.parse words with
  | .error e =>
    { ending := .exit 2, complaints := usage ++ "sed.py: error: ".toList ++ e.message ++ ['\n'],
      store }
  | .ok o =>
    if o.has .version then { ending := .exit 0, output := lineText [brief, version], store }
    else if o.has .help then { ending := .exit 0, output := helpText, store }
    else if o.has .helpPage then { ending := .exit 0, opened := [helpPage store], store }
    else edit budget store input o

def Options.files (o : Options) : List Text := helpFile :: o.scriptFile :: o.input.toList

def commandFiles (c : Command) : List Text :=
  match c.action with
  | .read file | .write file => [file]
  | .substitute s => [s.file]
  | _ => []

def scriptFiles (store : Store) (o : Options) : List Text :=
  let (report, _) := Session.perform { store } 0 0 (prepare o)
  (report.editor.program.getD []).flatMap commandFiles

end StreamEditor.CommandLine
