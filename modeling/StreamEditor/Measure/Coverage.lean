import StreamEditor.Json.Value
import StreamEditor.Numeral.Printing

namespace StreamEditor.Measure

structure FileCoverage where
  name : Text
  statements : Int
  missed : Int
  percent : Binary
  missing : List Int

structure Coverage where
  percent : Json
  covered : Json
  statements : Json
  files : List FileCoverage
  errors : List (Text × Json)

def integerAt (v : Json) (name : String) : Int := ((v.get? name).bind Json.integer?).getD 0

def numberAt (v : Json) (name : String) : Binary :=
  ((v.get? name).bind Json.number?).getD Binary.zero

def memberAt (v : Json) (name : String) : Json := (v.get? name).getD (.object [])

namespace Coverage

def fileOfJson (name : Text) (v : Json) : FileCoverage :=
  let summary := memberAt v "summary"
  { name, statements := integerAt summary "num_statements",
    missed := integerAt summary "num_statements" - integerAt summary "covered_lines",
    percent := numberAt summary "percent_covered",
    missing := ((memberAt v "missing_lines").items).filterMap Json.integer? }

def ofJson (v : Json) : Coverage :=
  let totals := memberAt v "totals"
  { percent := (totals.get? "percent_covered").getD (.real Binary.zero),
    covered := (totals.get? "covered_lines").getD (.integer 0),
    statements := (totals.get? "num_statements").getD (.integer 0),
    files := (memberAt v "files").members.map fun (name, f) => fileOfJson name f,
    errors := (memberAt (memberAt v "meta") "_pti_bench_errors").members }

def percentNumber (c : Coverage) : Binary := c.percent.number?.getD Binary.zero

def runs : List Int → List (Int × Int)
  | [] => []
  | n :: ns =>
    match runs ns with
    | (a, b) :: rest => if a = n + 1 then (n, b) :: rest else (n, n) :: (a, b) :: rest
    | [] => [(n, n)]

def runText (r : Int × Int) : Text :=
  if r.1 = r.2 then Text.ofInteger r.1 else Text.ofInteger r.1 ++ '-' :: Text.ofInteger r.2

def missingLimit : Nat := 60

def missingText (lines : List Int) : Text :=
  let t := Text.join [',', ' '] ((runs lines).map runText)
  if t.length ≤ missingLimit then t else t.take (missingLimit - 1) ++ ['…']

def nameWidth (c : Coverage) : Nat := (c.files.map (·.name.length)).foldl max 4

def right (width : Nat) (t : Text) : Text := Text.padLeft ' ' width t

def row (width : Nat) (name statements missed percent missing : Text) : Text :=
  Text.padRight width name ++ "  ".toList ++ right 5 statements ++ "  ".toList ++ right 4 missed ++
    "  ".toList ++ right 5 percent ++ (if missing.isEmpty then [] else "  ".toList ++ missing)

def percentText (x : Binary) : Text := x.fixed 0 ++ ['%']

def table (c : Coverage) : List Text :=
  let width := c.nameWidth
  let rule := List.replicate (width + 42) '-'
  let statements := c.statements.integer?.getD 0
  let missed := statements - c.covered.integer?.getD 0
  [row width "Name".toList "Stmts".toList "Miss".toList "Cover".toList "Missing".toList, rule] ++
    c.files.map (fun f => row width f.name (Text.ofInteger f.statements) (Text.ofInteger f.missed)
      (percentText f.percent) (missingText f.missing)) ++
    [rule, row width "TOTAL".toList (Text.ofInteger statements) (Text.ofInteger missed)
      (percentText c.percentNumber) []]

end Coverage

end StreamEditor.Measure
