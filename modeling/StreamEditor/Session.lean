import StreamEditor.Editor.Run
import StreamEditor.Script.Listing

namespace StreamEditor

structure Session where
  editors : List (Nat × Editor) := []
  store : Store := []
  nextNumber : Nat := 1
  deferred : Bool := false

structure Report (α : Type) where
  outcome : Except Failure α
  editor : Editor
  trials : List Trial

namespace Session

/-- Work on the editor of a number, which is new if it was not used before. The output is closed
afterwards in any case, and what was done before a failure stays. -/
def perform {α : Type} (s : Session) (id trialLimit : Nat) (work : Edit α) : Report α × Session :=
  let start : Machine :=
    { editor := (s.editors.lookup id).getD {}, store := s.store, nextNumber := s.nextNumber,
      deferred := s.deferred, trialLimit }
  let (outcome, m) : Except Failure α × Machine :=
    match work start with
    | .ok a m => (.ok a, m)
    | .error e m => (.error e, m)
  let m :=
    match Edit.closeOutput m with
    | .ok _ m => m
    | .error _ m => m
  let editors := (id, m.editor) :: s.editors.filter (·.1 ≠ id)
  (⟨outcome, m.editor, m.trials.toList⟩,
    { s with editors, store := m.store, nextNumber := m.nextNumber })

end Session

def listProgram : Edit (List Text) := do
  match (← Edit.editor).program with
  | none => throw .noProgram
  | some p => Edit.lift p.listing

end StreamEditor
