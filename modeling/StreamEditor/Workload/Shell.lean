import StreamEditor.CommandLine.Run
import StreamEditor.Workload.Basic
import StreamEditor.Workload.Reading

namespace StreamEditor.Workload

def runWords (budget : Nat) (words : List String) : CommandLine.Result :=
  let store := [("in.txt".toList, Text.toLatin1 (linesText [['a'], ['b'], ['c']]))]
  CommandLine.run budget store [] (words.map String.toList)

def lineCount (words : List String) (budget : Nat) : Nat :=
  (runWords budget words).output.count '\n'

def exitCode : CommandLine.Ending → Nat
  | .exit code => code
  | .broken _ => 1

def commandLines : Workload where
  sizeName := "n_runs"
  sizes := [5, 40, 160]
  run budget n :=
    let once := lineCount ["-v"] budget + lineCount ["-dn", "-e", "$=", "in.txt"] budget
    let each := lineCount ["-e", "s/a/b/", "in.txt"] budget
    let failed := exitCode (runWords budget ["-e", "k", "in.txt"]).ending
    .ok (.tuple [.number (once + n.toNat * each), .number failed])

def named? : String → Option Workload
  | "substitute" => some substitute
  | "holdspace" => some holdSpace
  | "compile" => some compile
  | "regexp_convert" => some convert
  | "file_io" => some files
  | "errors" => some faults
  | "cli" => some commandLines
  | "regast" => some trees
  | _ => none

end StreamEditor.Workload
