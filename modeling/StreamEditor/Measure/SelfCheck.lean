import StreamEditor.Measure.RepoTime

namespace StreamEditor.Measure

inductive Status where
  | ok
  | returnsNone
  | unstable
  | returnsInput
  | lowRepoTime
  | paramInvariant
  | repoModified
  | error
  deriving DecidableEq, Repr

namespace Status

def name : Status → String
  | ok => "ok"
  | returnsNone => "returns-none"
  | unstable => "unstable"
  | returnsInput => "returns-input"
  | lowRepoTime => "low-repo-time"
  | paramInvariant => "param-invariant"
  | repoModified => "repo-modified"
  | error => "error"

def advice : List String :=
  ["returns-none: run() has no return — collect and return the call results",
    "unstable: seed RNG in setup; avoid time/uuid/id in the return",
    "returns-input: return repo output, not the parameter value",
    "low-repo-time: <50% of run() time is in repo code — move glue to setup",
    "param-invariant: return something derived from run()'s work, not setup",
    "repo-modified: revert edits to repo files (git checkout -- <path>)"]

end Status

structure Checked where
  name : Text
  returned : Text
  stable : List Text
  byParam : List Text
  params : List Text
  times : List Binary
  shares : List Binary
  failed : Bool

namespace Checked

def textsAt (v : Json) (name : String) : List Text := (memberAt v name).items.filterMap Json.text?

def valuesAt (v : Json) (name : String) : List Json := (memberAt v name).members.map (·.2)

def ofJson (name : Text) (v : Json) : Checked where
  name := name
  returned := ((v.get? "ret_type").bind Json.text?).getD []
  stable := textsAt v "fp_stable"
  byParam := (valuesAt v "fp_by_param").filterMap Json.text?
  params := textsAt v "param_fps"
  times := (valuesAt v "repo_tt_ms").filterMap Json.number?
  shares := (valuesAt v "repo_frac").filterMap Json.number?
  failed := (v.get? "error").isSome

def percent (c : Checked) : Binary := (Binary.mean c.shares).mulNat 100

def allEqual (ts : List Text) : Bool := ts.all fun t => some t = ts.head?

def status (modified : Bool) (c : Checked) : Status :=
  if modified then .repoModified
  else if c.failed then .error
  else if c.returned = "NoneType".toList then .returnsNone
  else if !allEqual c.stable then .unstable
  else if (c.stable ++ c.byParam).any c.params.contains then .returnsInput
  else if !c.shares.isEmpty && c.percent.less (Binary.ofInteger 50) then .lowRepoTime
  else if 1 < c.byParam.length && allEqual c.byParam then .paramInvariant
  else .ok

def row (modified : Bool) (c : Checked) : Text :=
  let s := c.status modified
  RepoTime.mark (s ≠ .ok) ++ Text.padRight 32 c.name ++ ' ' :: Text.padRight 16 s.name.toList ++
    " (".toList ++ c.returned ++ ", repo ".toList ++ Coverage.percentText c.percent ++ ") ".toList ++
    (Binary.mean c.times).fixed 1 ++ ['m', 's']

end Checked

def modifiedShown : Nat := 10

def isOwnFile (path : Text) : Bool :=
  ["microbench.py", "_pti_", ".pti_"].any fun start => start.toList.isPrefixOf path

def modifiedFiles (listing : Text) : List Text :=
  (((Text.splitLines listing).filter (!·.isEmpty)).map (·.drop 3)).filter (!isOwnFile ·)

def modifiedLines (paths : List Text) : List Text :=
  if paths.isEmpty then []
  else
    [[], "** repo modified (".toList ++ Text.ofNumber paths.length ++
      " file(s)) — revert these; only microbench.py is yours to edit:".toList] ++
      (paths.take modifiedShown).map fun path => "   ".toList ++ path

def checkLines (modified : Bool) (rows : List Checked) : List Text :=
  if rows.isEmpty then []
  else
    [[], "self-check (* = fix needed):".toList] ++
      Status.advice.map (fun line => "  ".toList ++ line.toList) ++ rows.map (Checked.row modified)

end StreamEditor.Measure
