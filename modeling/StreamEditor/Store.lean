import StreamEditor.Failure
import StreamEditor.Text.Encoding

namespace StreamEditor

abbrev Store := List (Text × Bytes)

namespace Store

def nameLimit : Nat := 255

def locate (path : Text) : Except Failure Text :=
  if path.contains (Char.ofNat 0) then .error .nulInName
  else if path.isEmpty || path.head? = some '/' then .error (.fileNotFound path)
  else
    match (Text.splitAtChar '/' path).filter fun part => !part.isEmpty && part ≠ ['.'] with
    | [] => .error (.isDirectory path)
    | [name] =>
      if name = ['.', '.'] then .error (.isDirectory path)
      else if nameLimit < (Text.toUtf8 name).length then .error (.nameTooLong path)
      else .ok name
    | _ => .error (.fileNotFound path)

def put (s : Store) (name : Text) (contents : Bytes) : Store :=
  if s.any (·.1 = name) then s.map fun f => if f.1 = name then (name, contents) else f
  else s ++ [(name, contents)]

def read (s : Store) (path : Text) : Except Failure Bytes := do
  match s.lookup (← locate path) with
  | some contents => .ok contents
  | none => .error (.fileNotFound path)

def create (s : Store) (path : Text) : Except Failure Store := do
  .ok (s.put (← locate path) [])

def append (s : Store) (path : Text) (bytes : Bytes) : Except Failure Store := do
  let name ← locate path
  .ok (s.put name ((s.lookup name).getD [] ++ bytes))

end Store

def Failure.isFileSystem : Failure → Bool
  | .fileNotFound _ | .isDirectory _ | .nameTooLong _ => true
  | _ => false

end StreamEditor
