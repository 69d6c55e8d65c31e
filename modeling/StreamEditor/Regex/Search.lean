import StreamEditor.Regex.Matcher

/-!
Occurrences of a pattern in a text, from left to right. An empty occurrence may stand right after
another one, but two occurrences never end at the same place both empty.
-/

namespace StreamEditor

structure Occurrence where
  start : Nat
  stop : Nat
  tail : Text
  captures : List (Nat × Capture)
  deriving DecidableEq, Repr

namespace Occurrence

def length (o : Occurrence) : Nat := o.stop - o.start

def text (o : Occurrence) : Text := o.tail.take o.length

def isEmpty (o : Occurrence) : Bool := o.start = o.stop

def group (o : Occurrence) (n : Nat) : Text :=
  if n = 0 then o.text else ((o.captures.lookup n).map Capture.text).getD []

end Occurrence

namespace Regex

def matchAt (ignoreCase : Bool) (r : Regex) (s : Spot) (advance : Bool) : Option Spot :=
  r.run ignoreCase s fun t => if advance && t.pos = s.pos then none else some t

/-- The first occurrence in a text that has `pos` characters before it; `advance` forbids an empty
one in the first place. -/
def findFrom (ignoreCase : Bool) (r : Regex) : Text → Nat → Bool → Option Occurrence
  | [], pos, advance =>
    (matchAt ignoreCase r ⟨pos, [], []⟩ advance).map fun t => ⟨pos, t.pos, [], t.captures⟩
  | c :: cs, pos, advance =>
    match matchAt ignoreCase r ⟨pos, c :: cs, []⟩ advance with
    | some t => some ⟨pos, t.pos, c :: cs, t.captures⟩
    | none => findFrom ignoreCase r cs (pos + 1) false

def find? (ignoreCase : Bool) (r : Regex) (subject : Text) : Option Occurrence :=
  findFrom ignoreCase r subject 0 false

def occurrencesFrom (ignoreCase : Bool) (r : Regex) :
    Nat → Option Nat → Text → Nat → Bool → List Occurrence
  | 0, _, _, _, _ => []
  | fuel + 1, limit, rest, pos, advance =>
    if limit = some 0 then []
    else
      match findFrom ignoreCase r rest pos advance with
      | none => []
      | some o =>
        o :: occurrencesFrom ignoreCase r fuel (limit.map (· - 1)) (rest.drop (o.stop - pos)) o.stop
          o.isEmpty

def occurrences (ignoreCase : Bool) (r : Regex) (limit : Option Nat) (subject : Text) :
    List Occurrence :=
  occurrencesFrom ignoreCase r (2 * subject.length + 2) limit subject 0 false

end Regex

end StreamEditor
