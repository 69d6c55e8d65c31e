import StreamEditor.Dialect
import StreamEditor.Regex.Template

/-!
Regexps of a script, in the pattern language. They are compiled when they are loaded; with deferred
compilation the pattern is read again each time it is used, and no replacement can be expanded.
-/

namespace StreamEditor

structure Regexp where
  pattern : Text
  ignoreCase : Bool
  compiled : Option Regex
  deriving DecidableEq, Repr

namespace Regexp

def ofScript (deferred extended ignoreCase : Bool) (source : Text) :
    Except Failure (Option Regexp) :=
  if source.isEmpty then .ok none
  else do
    let pattern ← Dialect.convert source extended
    if deferred then .ok (some ⟨pattern, ignoreCase, none⟩)
    else
      match Regex.parse pattern with
      | .error e => .error (.ofRegex e)
      | .ok r => .ok (some ⟨pattern, ignoreCase, some r⟩)

def regex (x : Regexp) : Except Regex.Error Regex :=
  match x.compiled with
  | some r => .ok r
  | none => Regex.parse x.pattern

def search (x : Regexp) (subject : Text) : Except Regex.Error Bool :=
  x.regex.map fun r => (r.find? x.ignoreCase subject).isSome

def countLimit : Nat := Nat.pow 2 63

/-- The subject with the `count`-th occurrence replaced, or all for count zero; none if there is no
such occurrence. The template is looked at only if something is replaced. -/
def substitute? (x : Regexp) (template : Text) (count : Nat) (subject : Text) :
    Except Failure (Option Text) :=
  match x.regex with
  | .error e => .error (.ofRegex e)
  | .ok r =>
    if countLimit ≤ count then .error .countTooLarge
    else
      match r.chosen x.ignoreCase count subject with
      | [] => .ok none
      | os =>
        if x.compiled.isNone then .error .notCompiled
        else
          match Template.parse template with
          | none => .error .patternRejected
          | some t =>
            if t.fits r.groups then .ok (some (t.substitute subject os))
            else .error .patternRejected

end Regexp

end StreamEditor
