import StreamEditor.Json.Parser
import StreamEditor.Json.Value
import StreamEditor.Measure.SelfCheck
import StreamEditor.Store

namespace StreamEditor.Measure

/-- The least count so far, and how many counts came after it first appeared. -/
structure Plateau where
  best : Int
  since : Nat
  deriving DecidableEq, Repr

namespace Plateau

def start (x : Int) : Plateau := ⟨x, 0⟩

def step (p : Plateau) (x : Int) : Plateau := if x < p.best then ⟨x, 0⟩ else ⟨p.best, p.since + 1⟩

def ofCounts (history : List Int) (current : Int) : Plateau :=
  match history with
  | [] => start current
  | x :: xs => (xs ++ [current]).foldl step (start x)

end Plateau

def patience : Nat := 3

inductive Verdict where
  | goOn
  | converged
  | stalled (p : Plateau)
  deriving DecidableEq, Repr

def verdict (history : List Int) (current : Int) : Verdict :=
  if current = 0 then .converged
  else
    let p := Plateau.ofCounts history current
    if patience ≤ p.since then .stalled p else .goOn

inductive ToolRun where
  | ended (code : Int) (out err : Text)
  | raised (reason : Text)

structure Tools where
  coverage : ToolRun
  changes : ToolRun
  repoTime : ToolRun
  selfCheck : ToolRun

structure Clock where
  started : Binary
  stopped : Binary
  now : Json

structure Report where
  exit : Option Int
  out : List Text
  err : Text
  store : Store

def coverageFile : Text := "_pti_coverage.json".toList
def recordFile : Text := ".pti_checkpoint.jsonl".toList
def workloadFile : Text := "microbench.py".toList
def repoTimeFile : Text := "_pti_repotime.py".toList
def selfCheckFile : Text := "_pti_semcheck.py".toList

def contents (store : Store) (name : Text) : Text :=
  Text.normalizeNewlines (Text.decodeUtf8 ((store.lookup name).getD [])).text

def holds (store : Store) (name : Text) : Bool := (store.lookup name).isSome

def toolJson (title : String) (lastLine : Bool) (run : ToolRun) : Option Json × Text :=
  let wrong (kind : String) (reason : Text) : Text :=
    ("[" ++ title ++ " runner: " ++ kind ++ ": ").toList ++ reason ++ [']', '\n']
  match run with
  | .raised reason => (none, wrong "RuntimeError" reason)
  | .ended _ out err =>
    let out := Text.trim out
    let out := if lastLine then ((Text.splitLines out).getLast?).getD [] else out
    if out.isEmpty then (none, err)
    else
      match Json.parse out with
      | .ok v => (some v, err)
      | .error e => (none, err ++ wrong "JSONDecodeError" (e.message out))

def timing (store : Store) (tools : Tools) : RepoTime × Text :=
  let (timed, err) :=
    if holds store repoTimeFile then toolJson "repotime" true tools.repoTime else (none, [])
  (RepoTime.ofJson (timed.getD .null), err)

def countWorkloads (source : Text) : Nat :=
  (Text.splitLines source).countP fun line => "def bench_".toList.isPrefixOf line

def recordLines (store : Store) : List Text :=
  (Text.splitLines (contents store recordFile)).filter fun line => !(Text.trim line).isEmpty

def history (lines : List Text) : List Int :=
  lines.filterMap fun line =>
    match Json.parse line with
    | .ok v => (v.get? "n_below_repo_time").bind Json.integer?
    | .error _ => none

def coverageEnough : Binary := Binary.ofInteger 60

def convergedLine : Text :=
  ">>> STOP: repo_time converged (0 below). Finalize microbench.py now. <<<".toList

def stalledLine (p : Plateau) : Text :=
  ">>> STOP: no repo_time improvement in ".toList ++ Text.ofNumber p.since ++
    " rounds (best ".toList ++ Text.ofInteger p.best ++
    " below). Finalize microbench.py now. <<<".toList

def Verdict.lines : Verdict → List Text
  | .goOn => []
  | .converged => [[], convergedLine]
  | .stalled p => [[], stalledLine p]

def verdictLines (coverage : Coverage) (repoTime : RepoTime) (earlier : List Int) : List Text :=
  if repoTime.percents.isEmpty || coverage.percentNumber.less coverageEnough then []
  else (verdict earlier repoTime.below).lines

def errorLines (errors : List (Text × Json)) : List Text :=
  if errors.isEmpty then []
  else
    [[], "bench errors:".toList] ++ errors.map fun (name, reason) =>
      "  ".toList ++ name ++ ": ".toList ++ (reason.text?.getD reason.text)

def roundLine (number benches : Nat) (coverage : Coverage) (repoTime : RepoTime)
    (notChecking checked : Nat) (seconds : Binary) : Text :=
  let ratio (a b : Nat) (title : String) : Text :=
    ", ".toList ++ Text.ofNumber a ++ '/' :: Text.ofNumber b ++ title.toList
  "[round ".toList ++ Text.ofNumber number ++ ": ".toList ++ Text.ofNumber benches ++
    " benches, ".toList ++ coverage.percentNumber.fixed 1 ++ "% covered".toList ++
    (if repoTime.percents.isEmpty then []
      else ratio repoTime.below repoTime.measured " below repo_time 45%") ++
    (if checked = 0 then [] else ratio notChecking checked " not self-checking") ++
    ", measured in ".toList ++ seconds.fixed 1 ++ "s]".toList

def sincePrevious (now : Json) : List Text → Option Binary
  | [] => some Binary.zero
  | lines =>
    match lines.getLast?.map Json.parse with
    | some (.ok v) =>
      match (v.get? "ts").bind Json.number?, now.number? with
      | some before, some now => some ((now.sub before).roundPlaces 2)
      | _, _ => none
    | _ => none

def record (number benches : Nat) (now : Json) (since : Binary) (coverage : Coverage)
    (seconds : Binary) (repoTime : RepoTime) (statuses : List (Text × Status)) : Json :=
  let count (n : Nat) : Json := .integer n
  .object
    [("round".toList, count number), ("ts".toList, now),
      ("wall_since_prev_s".toList, .real since), ("coverage_pct".toList, coverage.percent),
      ("covered_lines".toList, coverage.covered), ("num_statements".toList, coverage.statements),
      ("n_bench_fns".toList, count benches), ("n_bench_errors".toList, count coverage.errors.length),
      ("cov_measure_s".toList, .real (seconds.roundPlaces 3)),
      ("repo_time_pct".toList, .object repoTime.percents),
      ("n_below_repo_time".toList,
        if repoTime.percents.isEmpty then .null else count repoTime.below),
      ("semcheck".toList,
        .object (statuses.map fun (name, s) => (name, .string s.name.toList))),
      ("n_not_self_checking".toList, count (statuses.countP (·.2 ≠ .ok)))]

def appendRecord (store : Store) (lines : List Text) (now : Json) (line : Binary → Json) : Store :=
  match sincePrevious now lines with
  | none => store
  | some since =>
    store.put recordFile
      (((store.lookup recordFile).getD []) ++ Text.toUtf8 ((line since).text ++ ['\n']))

def failedReport (store : Store) (code : Int) (out err : Text) : Report where
  exit := some (if code = 0 then 1 else code)
  out := ["coverage measurement failed (exit ".toList ++ Text.ofInteger code ++ [')'], out]
  err := err
  store := store

def round (store : Store) (tools : Tools) (clock : Clock) : Report :=
  match tools.coverage with
  | .raised reason => failedReport store 1 reason []
  | .ended code out err =>
    match Json.parse (contents store coverageFile), code with
    | .ok measured, 0 =>
      let coverage := Coverage.ofJson measured
      let seconds := clock.stopped.sub clock.started
      let lines := recordLines store
      let benches := countWorkloads (contents store workloadFile)
      let (repoTime, timeErr) := timing store tools
      let (checked, checkErr) :=
        if holds store selfCheckFile then toolJson "semcheck" false tools.selfCheck else (none, [])
      let rows := (memberAt (checked.getD .null) "semcheck").members.map fun (name, v) =>
        Checked.ofJson name v
      let changed :=
        match tools.changes with
        | .ended _ out _ => modifiedFiles out
        | .raised _ => []
      let modified := !changed.isEmpty
      let statuses := rows.map fun c => (c.name, c.status modified)
      let notChecking := statuses.countP (·.2 ≠ .ok)
      let number := lines.length + 1
      { exit := none,
        out := coverage.table ++ errorLines coverage.errors ++ repoTime.lines ++
          modifiedLines changed ++ checkLines modified rows ++
          [[], roundLine number benches coverage repoTime notChecking rows.length seconds] ++
          verdictLines coverage repoTime (history lines),
        err := timeErr ++ checkErr,
        store := appendRecord store lines clock.now fun since =>
          record number benches clock.now since coverage seconds repoTime statuses }
    | _, _ => failedReport store code out err

end StreamEditor.Measure
