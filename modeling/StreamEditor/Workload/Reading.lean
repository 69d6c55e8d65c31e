import StreamEditor.Outline.Samples
import StreamEditor.Workload.Basic

namespace StreamEditor.Workload

def compileScript (i : Nat) : Text :=
  linesText (("1,/end".toList ++ Text.zeroPadded 2 (i % 10) ++ "/\x7b".toList) ::
    ["/foo/s/bar/baz/gp", "y/abc/xyz/", "h", "G", "\x7d", ":loop", "s/x\\(y\\)/\\1/2", "t loop",
      "$!N", "P", "D", "/a/,/b/d", "2q", "a\\", "tail", "i\\", "head", "c\\", "changed", "x", "g",
      "H", "l", "="].map String.toList)

def loadScripts (session : Session) : List Text → Except Error (List Program × Session)
  | [] => .ok ([], session)
  | script :: scripts =>
    let work : Edit Program := do
      loadText script
      return (← Edit.editor).program.getD []
    let (report, session) := session.perform 0 0 work
    match report.outcome with
    | .error f => .error (.failed f)
    | .ok p => do
      let (ps, session) ← loadScripts session scripts
      .ok (p :: ps, session)

def compile : Workload where
  sizeName := "n_scripts"
  sizes := [15, 60, 240]
  run _ n := do
    let (programs, _) ← loadScripts {} ((List.range n.toNat).map compileScript)
    match programs.getLast? with
    | none => .error .nothingLoaded
    | some p =>
      match p.listing with
      | .error f => .error (.failed f)
      | .ok rows =>
        .ok (.tuple [.number (total (programs.map List.length)), .text (← firstOf rows)])

def basicRegexps : List Text :=
  ["\\(abc\\)\\+de\\?f\\|ghi", "^a*b\\\x7b2,3\\\x7d$", "[]a-z]\\(x\\)\\1"].map String.toList

def extendedRegexps : List Text :=
  ["(a|b)+c?", "^[^x]*(y)\\1$", "z\x7b2,\x7d\\."].map String.toList

def replacements : List Text :=
  ["\\1\\2 & \\& \\n \\\\ x \\20 tail", "pre & post \\1end", "\\g plain"].map String.toList

def nth (ts : List Text) (i : Nat) : Text := ts[i % ts.length]?.getD []

def conversions (i : Nat) : Except Failure (List Text) := do
  .ok [← Dialect.convert (nth basicRegexps i) false, ← Dialect.convert (nth extendedRegexps i) true,
    Dialect.convertReplacement (nth replacements i)]

def convert : Workload where
  sizeName := "n_exprs"
  sizes := [60, 300, 1500]
  run _ n :=
    match (List.range n.toNat).mapM conversions with
    | .error f => .error (.failed f)
    | .ok converted => ends (3 * converted.length) converted.flatten

def faultyScripts : List Text :=
  ["k", "p x", "s/a/b", "s/a/b/q", "s/a/b/2g", "/a[/p", "y/ab/c/", "y/ab/cd", "y/a/b/x", "b nolabel",
    "\x7d", "", "1,p", "s/a**/b/", "3", "1,2q", "x;y"].map String.toList

def missingInput : Text := "missing-in.txt".toList

def messageLength {α : Type} : Except Error α → Nat
  | .ok _ => 0
  | .error e => e.message.length

def faults : Workload where
  sizeName := "n_iters"
  sizes := [20, 80, 320]
  run budget n :=
    let lengths := faultyScripts.map fun script =>
      messageLength (edit budget [] script (.text ['a', '\n']))
    let missing := messageLength (edit budget [] ['p'] (.file missingInput))
    .ok (.number (n.toNat * (total lengths + missing)))

def trees : Workload where
  sizeName := "n_exprs"
  sizes := [50, 200, 800]
  run _ n :=
    let regexps := Outline.samples.map String.toList
    let written := (List.range n.toNat).map fun i =>
      match Outline.Node.parse (nth regexps i) with
      | .ok tree => tree.text.length
      | .error _ => 0
    .ok (.tuple [.number written.length, .number (total written)])

end StreamEditor.Workload
