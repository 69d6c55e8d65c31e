import StreamEditor.CommandLine.Run

/-!
The command line. The files that can be touched are read, the run is computed, and the files that
changed are written.
-/

namespace StreamEditor.CommandLine

def readFiles (names : List Text) (store : Store) : IO Store :=
  names.foldlM (fun s name => do
    try
      let bytes ← IO.FS.readBinFile (String.ofList name)
      return s.put name bytes.toList
    catch _ => return s) store

def writeFiles (before after : Store) : IO Unit :=
  after.forM fun (name, contents) => do
    if before.lookup name ≠ some contents then
      IO.FS.writeBinFile (String.ofList name) ⟨contents.toArray⟩

partial def readAll (input : IO.FS.Stream) (read : String) : IO String := do
  let line ← input.getLine
  if line.isEmpty then return read else readAll input (read ++ line)

def unlimited : Nat := Nat.pow 2 64

end StreamEditor.CommandLine

open StreamEditor CommandLine

def main (args : List String) : IO UInt32 := do
  let words := args.map String.toList
  let options := (Options.parse words).toOption.getD {}
  let named ← readFiles options.files []
  let store ← readFiles (scriptFiles named options) named
  let reads := options.input.isNone && !(options.scriptFile.isEmpty && options.script.isEmpty)
  let input ← if reads then readAll (← IO.getStdin) "" else pure ""
  let result := run unlimited store input.toList words
  writeFiles store result.store
  IO.print (String.ofList result.output)
  result.opened.forM fun page => IO.println (String.ofList page)
  IO.eprint (String.ofList result.complaints)
  match result.ending with
  | .exit code => return code.toUInt32
  | .broken f =>
    IO.eprintln f.message
    return 1
