import StreamEditor.Fingerprint.Value
import StreamEditor.Session

namespace StreamEditor.Fingerprint

inductive Kind where
  | value (v : Value)
  | closure (v : Value)
  | echo
  | pair (v : Value)
  | edit (script input : Text)
  | fails
  | exits
  | timesOut
  | constant

structure Bench where
  name : Text
  kind : Kind
  params : List (List (Text × Value))

inductive Fault where
  | value
  | exit
  | timeout
  | failure (f : Failure)
  | badArgument
  deriving DecidableEq, Repr

namespace Bench

def sizeName : Text := ['n']

def defaultSize : Int := 3

def isExamined (b : Bench) : Bool :=
  "bench_".toList.isPrefixOf b.name &&
    match b.kind with
    | .constant => false
    | _ => true

def editLines (script input : Text) (n : Int) : Except Fault Value :=
  let work : Edit (Array Text) := do
    loadText script
    apply 5000 (.text (List.replicate n.toNat input).flatten) .nowhere
    return (← Edit.editor).printed
  let (report, _) := Session.perform {} 0 0 work
  match report.outcome with
  | .ok lines => .ok (.list (lines.toList.map Value.text))
  | .error f => .error (.failure f)

def sizeOf (size : Value) : Int :=
  match size with
  | .integer n => n
  | .bool b => if b then 1 else 0
  | _ => 0

def run (b : Bench) (size : Value) : Except Fault Value :=
  match b.kind with
  | .value v | .closure v => .ok v
  | .echo => .ok size
  | .pair v => .ok (.tuple [size, v])
  | .edit script input => editLines script input (sizeOf size)
  | .fails => .error .value
  | .exits => .error .exit
  | .timesOut => .error .timeout
  | .constant => .error .badArgument

def runWith (b : Bench) (param : List (Text × Value)) : Except Fault Value :=
  match param with
  | [] => b.run (.integer defaultSize)
  | [(name, v)] => if name = sizeName then b.run v else .error .badArgument
  | _ => .error .badArgument

def label (param : List (Text × Value)) : Text :=
  Text.join [','] (param.map fun (name, v) =>
    name ++ '=' :: match v with
      | .integer n => Text.ofInteger n
      | v => v.className)

end Bench

structure Row where
  returned : Text
  stable : List Text
  byParam : List (Text × Text)
  params : List Text
  timed : List Text
  deriving DecidableEq, Repr

def Bench.examine (b : Bench) : Except Fault Row := do
  let v ← b.runWith []
  let again ← b.runWith []
  let tried ← b.params.mapM fun p => do .ok (Bench.label p, (← b.runWith p).fingerprint)
  .ok
    { returned := v.className, stable := [v.fingerprint, again.fingerprint], byParam := tried,
      params := b.params.flatMap fun p => p.map fun (_, v) => v.fingerprint,
      timed := "<default>".toList :: tried.map (·.1) }

inductive Whereabouts where
  | editor
  | elsewhere
  | nowhere (fault : Fault)
  deriving DecidableEq, Repr

def Bench.whereabouts (b : Bench) : Whereabouts :=
  match b.runWith [] with
  | .error e => .nowhere e
  | .ok _ =>
    match b.kind with
    | .edit .. => .editor
    | _ => .elsewhere

def importError : Text :=
  "ModuleNotFoundError: import of microbench halted; None in sys.modules".toList

end StreamEditor.Fingerprint
