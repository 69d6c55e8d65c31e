import StreamEditor.Script.Parse

namespace StreamEditor.Script

def labelIndex? (cs : List Command) (name : Text) : Option Nat :=
  let marks := cs.zipIdx.filterMap fun (c, i) => if c.action = .label name then some i else none
  marks.getLast?

def labelBranch (cs : List Command) (name : Text) : Except Failure (Option Nat) :=
  if name.isEmpty then .ok none
  else
    match labelIndex? cs name with
    | some i => .ok (some i)
    | none => .error (.fault (.undefinedLabel name))

def dropLeadingLine (t : Text) : Text :=
  match t with
  | '\n' :: rest => rest
  | _ => t

def resolve (cs : List Command) (c : Command) : Except Failure Command :=
  match c.action with
  | .branch name => do
    let name := Text.trimRight name
    .ok { c with action := .branch name, branch := ← labelBranch cs name }
  | .test name => do
    let name := Text.trimRight name
    .ok { c with action := .test name, branch := ← labelBranch cs name }
  | .append t => .ok { c with action := .append (dropLeadingLine t) }
  | .insert t => .ok { c with action := .insert (dropLeadingLine t) }
  | .change t => .ok { c with action := .change (dropLeadingLine t) }
  | _ => .ok c

/-- The blocks among commands from position `i` on, each as the positions of its two ends; `stack`
has the blocks open before. A block that is never closed is left out. -/
def blocks (stack : List Nat) (i : Nat) : List Command → Except Failure (List (Nat × Nat))
  | [] => .ok []
  | c :: cs =>
    match c.action, stack with
    | .openBlock, _ => blocks (i :: stack) (i + 1) cs
    | .closeBlock, [] => .error .noOpenBlock
    | .closeBlock, start :: stack => (blocks stack (i + 1) cs).map ((start, i) :: ·)
    | _, _ => blocks stack (i + 1) cs

def following (size i : Nat) : Option Nat := if i + 1 < size then some (i + 1) else none

def linkAt (size : Nat) (ends : List (Nat × Nat)) (c : Command) (i : Nat) : Command :=
  match ends.lookup i with
  | some stop => { c with next := following size stop, branch := some (i + 1) }
  | none => { c with next := following size i }

def link (cs : List Command) : Except Failure Program :=
  if cs.isEmpty then .error .listIndex
  else do
    let resolved ← cs.mapM (resolve cs)
    let ends ← blocks [] 0 cs
    .ok (resolved.zipIdx.map fun (c, i) => linkAt cs.length ends c i)

def program (lines : List Text) : Reading Program := fun n =>
  match (commands lines >>= fun cs => Reading.lift (link cs)) n with
  | .ok p n => .ok p n
  | .error e n => .error e.whileParsing n

end StreamEditor.Script
