import StreamEditor.Dialect
import StreamEditor.Script.Command
import StreamEditor.Store

/-!
Preparing commands for a run. Preparation stops at the first failure and leaves what was not reached
as it was written.
-/

namespace StreamEditor

structure RegexpMode where
  extended : Bool
  deferred : Bool

/-- A value with as much done as could be, and what stopped the work. -/
structure Attempt (α : Type) where
  value : α
  failure : Option Failure

namespace Attempt

def done {α : Type} (a : α) : Attempt α := ⟨a, none⟩

def andThen {α β : Type} (a : Attempt α) (f : α → Attempt β) (stopped : α → β) : Attempt β :=
  match a.failure with
  | none => f a.value
  | some e => ⟨stopped a.value, some e⟩

end Attempt

def Address.prepare (mode : RegexpMode) (a : Address) : Attempt Address :=
  match a with
  | .regexp source ignoreCase _ =>
    match Regexp.ofScript mode.deferred mode.extended ignoreCase source with
    | .ok x => .done (.regexp source ignoreCase x)
    | .error e => ⟨a, some e⟩
  | _ => .done a

def Substitution.prepare (mode : RegexpMode) (s : Substitution) : Attempt Substitution :=
  match s.pattern with
  | none => ⟨s, some .patternMissing⟩
  | some source =>
    match Regexp.ofScript mode.deferred mode.extended s.ignoreCase source with
    | .error e => ⟨s, some e⟩
    | .ok none =>
      .done { s with
        pattern := some [], replacement := Dialect.convertReplacement s.replacement,
        target := .recalled }
    | .ok (some x) =>
      .done { s with
        pattern := some x.pattern, replacement := Dialect.convertReplacement s.replacement,
        target := .own x }

def Transliteration.prepare (y : Transliteration) : Attempt Transliteration :=
  match Dialect.unescape y.source with
  | .error e => ⟨y, some e⟩
  | .ok source =>
    match Dialect.unescape y.dest with
    | .error e => ⟨{ y with source }, some e⟩
    | .ok dest =>
      match CharTable.ofTexts? source dest with
      | none => ⟨⟨source, dest, none⟩, some (.fault .transliterationLengths)⟩
      | some table => .done ⟨source, dest, some table⟩

namespace Command

def prepareFirst (mode : RegexpMode) (c : Command) : Attempt Command :=
  match c.first with
  | none => .done c
  | some a =>
    let r := a.prepare mode
    ⟨{ c with first := some r.value }, r.failure⟩

def prepareSecond (mode : RegexpMode) (c : Command) : Attempt Command :=
  match c.second with
  | none => .done c
  | some a =>
    let r := a.prepare mode
    ⟨{ c with second := some r.value }, r.failure⟩

def prepareAction (mode : RegexpMode) (c : Command) : Attempt Command :=
  match c.action with
  | .substitute s =>
    let r := s.prepare mode
    ⟨{ c with action := .substitute r.value }, r.failure⟩
  | .transliterate y =>
    let r := y.prepare
    ⟨{ c with action := .transliterate r.value }, r.failure⟩
  | _ => .done c

def prepare (mode : RegexpMode) (c : Command) : Attempt Command :=
  ((c.prepareFirst mode).andThen (prepareSecond mode) id).andThen (prepareAction mode) id

def outputFile? (c : Command) : Option Text :=
  let named (file : Text) := if file.isEmpty then none else some file
  match c.action with
  | .write file => named file
  | .substitute s => if s.write then named s.file else none
  | _ => none

end Command

namespace Program

def prepare (mode : RegexpMode) : Program → Attempt Program
  | [] => .done []
  | c :: cs =>
    (c.prepare mode).andThen
      (fun c => let r := prepare mode cs; ⟨c :: r.value, r.failure⟩)
      (fun c => c :: cs)

def createFiles (p : Program) (store : Store) : Attempt Store :=
  (p.filterMap Command.outputFile?).foldl
    (fun a file => a.andThen
      (fun store =>
        match store.create file with
        | .ok store => .done store
        | .error e => ⟨store, some (if e.isFileSystem then .fault (.unopenable file) else e)⟩)
      id)
    (.done store)

end Program

end StreamEditor
