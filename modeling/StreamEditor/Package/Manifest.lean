import StreamEditor.CommandLine.Run
import StreamEditor.Package.Version

/-!
The description under which the editor is installed. The tests are staged in a directory of their
own while the description is made, and the stage is removed afterwards.
-/

namespace StreamEditor.Package

structure Contact where
  url : Text := []
  author : Text := []
  authorEmail : Text := []
  deriving DecidableEq, Repr

structure Manifest extends Contact where
  name : Text
  version : Text
  license : Text
  description : Text
  packages : List Text
  entryPoints : List (Text × List Text)
  zipSafe : Bool
  includePackageData : Bool
  dataFiles : List (Text × List Text)
  deriving DecidableEq, Repr

inductive StageError where
  | missing
  | stageExists
  | stageIsFile
  deriving DecidableEq, Repr

structure Outcome where
  manifest : Except StageError Manifest
  left : List Text

def sortTexts (ts : List Text) : List Text := ts.mergeSort fun a b => !decide (b < a)

def packageMark : Text := "__init__.py".toList

def isPackage (t : Tree) (p : Path) : Bool :=
  (initials p ++ [p]).all fun q =>
    t.isFile (q ++ [packageMark]) && !(q.getLast?.any fun name => name.contains '.')

def packages (t : Tree) : List Text :=
  sortTexts ((t.directories.filter (isPackage t)).map (Text.join ['.']))

def stage : Text := "PythonSed\\tests".toList

def testFolder : Text := "tests".toList

def manifest (contact : Contact) (t : Tree) : Manifest where
  toContact := contact
  name := "PythonSed".toList
  version := CommandLine.version
  license := "MIT".toList
  description := "Full and working implementation of sed in python\n".toList
  packages := packages t
  entryPoints := [("console_scripts".toList, ["pythonsed = PythonSed.sed:main".toList])]
  zipSafe := true
  includePackageData := true
  dataFiles :=
    [(testFolder, sortTexts ((t.below [stage]).map fun f => Text.join ['/'] (stage :: f.1)))]

def staged (t : Tree) : Tree :=
  t ++ (t.below [testFolder]).map fun f => (stage :: f.1, f.2)

def describe (t : Tree) (contact : Contact := {}) : Outcome :=
  let left (t : Tree) := sortTexts t.names
  if t.isFile [stage] then ⟨.error .stageIsFile, left t⟩
  else
    let cleared := t.without [stage]
    if (t.below [testFolder]).isEmpty then ⟨.error .missing, left cleared⟩
    else if t.isDirectory [stage] then ⟨.error .stageExists, left cleared⟩
    else ⟨.ok (manifest contact (staged t)), left cleared⟩

end StreamEditor.Package
