import StreamEditor.Session

namespace StreamEditor

namespace Workload

inductive Value where
  | number (n : Int)
  | text (t : Text)
  | tuple (vs : List Value)

inductive Error where
  | nothingLoaded
  | failed (f : Failure)
  deriving DecidableEq, Repr

def Error.message : Error → String
  | nothingLoaded => "'NoneType' object has no attribute 'dump_script'"
  | failed f => f.message

end Workload

structure Workload where
  sizeName : String
  sizes : List Nat
  run : Nat → Int → Except Workload.Error Workload.Value

namespace Workload

def linesText (lines : List Text) : Text := Text.join ['\n'] lines ++ ['\n']

def total (ns : List Nat) : Nat := ns.foldl (· + ·) 0

def edit (budget : Nat) (store : Store) (script : Text) (source : Source) :
    Except Error (List Text × Store) :=
  let work : Edit (Array Text) := do
    loadText script
    apply budget source .nowhere
    return (← Edit.editor).printed
  let (report, session) := Session.perform { store } 0 0 work
  match report.outcome with
  | .ok lines => .ok (lines.toList, session.store)
  | .error f => .error (.failed f)

def firstOf (ts : List Text) : Except Error Text :=
  match ts.head? with
  | some t => .ok t
  | none => .error (.failed .listIndex)

def lastOf (ts : List Text) : Except Error Text :=
  match ts.getLast? with
  | some t => .ok t
  | none => .error (.failed .listIndex)

def ends (count : Nat) (ts : List Text) : Except Error Value := do
  .ok (.tuple [.number count, .text (← firstOf ts), .text (← lastOf ts)])

def substituteScript : Text :=
  linesText (["s/x/./25;s/x/./20;s/x/./15", "s/foo/F/p", "5d", "s/bar/B/", "1,3s/^/>/",
    "s/$/!/"].map String.toList)

def substitute : Workload where
  sizeName := "n_lines"
  sizes := [80, 400, 1600]
  run budget n := do
    let line := "foo bar ab ".toList ++ List.replicate 80 'x'
    let (out, _) ← edit budget [] substituteScript (.text (linesText (List.replicate n.toNat line)))
    ends out.length out

def holdScripts : List Text :=
  [["1!G", "h", "$!d"], ["x", "p", "x"], ["/./\x7b", "H", "$!d", "\x7d", "x", "s/\\n/ /g"]].map
    fun lines => linesText (lines.map String.toList)

def holdSpace : Workload where
  sizeName := "n_lines"
  sizes := [120, 600, 2400]
  run budget n := do
    let lines := (List.range n.toNat).map fun i =>
      if i % 7 = 2 then [] else "alpha beta gamma".toList
    let outs ← holdScripts.mapM fun script => edit budget [] script (.text (linesText lines))
    let out := outs.flatMap (·.1)
    .ok (.tuple [.number out.length, .number (total (out.map List.length))])

def fileScript : Text :=
  linesText (["1r extra", "w copy", "1,3s/foo/FOO/", "4,$\x7b", "h", "y/abcdefghi/ABCDEFGHI/", "G",
    "\x7d"].map String.toList)

def fileLine (i : Nat) : Text := "line ".toList ++ Text.zeroPadded 5 i ++ " foo bar".toList

def files : Workload where
  sizeName := "n_lines"
  sizes := [100, 400, 1600]
  run budget n := do
    let store : Store :=
      [("in".toList, Text.toLatin1 (linesText ((List.range n.toNat).map fileLine))),
        ("extra".toList, Text.toUtf8 (linesText ["READ-A".toList, "READ-B".toList]))]
    let (out, store) ← edit budget store fileScript (.file "in".toList)
    let copy := Text.utf8Records ((store.lookup "copy".toList).getD [])
    ends (out.length + copy.length) out

end Workload

end StreamEditor
