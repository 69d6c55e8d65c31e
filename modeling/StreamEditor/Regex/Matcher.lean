import StreamEditor.Regex.Basic

/-!
Matching by backtracking. A matcher is given what remains to be done after it and answers with the
first success in order of preference: left branches first, repetitions as often as possible first.
-/

namespace StreamEditor

structure Capture where
  tail : Text
  length : Nat
  deriving DecidableEq, Repr

def Capture.text (c : Capture) : Text := c.tail.take c.length

/-- A place in the subject: the number of characters before it, the text after it, and what the
groups held on the way there, newest first. -/
structure Spot where
  pos : Nat
  rest : Text
  captures : List (Nat × Capture)
  deriving DecidableEq, Repr

namespace Spot

def captured? (s : Spot) (n : Nat) : Option Capture := s.captures.lookup n

def capture (s : Spot) (n : Nat) (c : Capture) : Spot := { s with captures := (n, c) :: s.captures }

end Spot

namespace Regex

def stripText (ignoreCase : Bool) : Text → Text → Option Text
  | [], t => some t
  | _ :: _, [] => none
  | c :: cs, d :: ds =>
    let same := if ignoreCase then Text.lowerCode c.toNat = Text.lowerCode d.toNat else c = d
    if same then stripText ignoreCase cs ds else none

def one {α : Type} (test : Char → Bool) (s : Spot) (k : Spot → Option α) : Option α :=
  match s.rest with
  | [] => none
  | c :: cs => if test c then k { s with pos := s.pos + 1, rest := cs } else none

def sweep {α : Type} (test : Char → Bool) (captures : List (Nat × Capture))
    (k : Spot → Option α) : Text → Nat → Nat → Option Nat → Option α
  | [], pos, min, _ => if min = 0 then k ⟨pos, [], captures⟩ else none
  | c :: cs, pos, min, max =>
    if max ≠ some 0 ∧ test c then
      match sweep test captures k cs (pos + 1) (min - 1) (max.map (· - 1)) with
      | some a => some a
      | none => if min = 0 then k ⟨pos, c :: cs, captures⟩ else none
    else if min = 0 then k ⟨pos, c :: cs, captures⟩ else none

/-- Rounds of a repeated body, `count` of them done. Beyond the least number, a round is tried unless
it would start where the previous optional one started. There are at most as many rounds as `fuel`
says. -/
def rounds {α : Type} (body : Spot → (Spot → Option α) → Option α) (min : Nat) (max : Option Nat) :
    Nat → Nat → Option Nat → Spot → (Spot → Option α) → Option α
  | 0, _, _, s, k => k s
  | fuel + 1, count, last, s, k =>
    if count < min then body s fun t => rounds body min max fuel (count + 1) last t k
    else if (max.all (count < ·)) ∧ last ≠ some s.pos then
      match body s fun t => rounds body min max fuel (count + 1) (some s.pos) t k with
      | some a => some a
      | none => k s
    else k s

def roundLimit (min : Nat) (s : Spot) : Nat := min + s.rest.length + 2

def run {α : Type} (ignoreCase : Bool) : Regex → Spot → (Spot → Option α) → Option α
  | empty, s, k => k s
  | char c, s, k => one (if ignoreCase then Text.sameLetter c else (· = c)) s k
  | any, s, k => one (fun _ => true) s k
  | set cs, s, k => one (if ignoreCase then cs.containsLetter else cs.contains) s k
  | start, s, k => if s.pos = 0 then k s else none
  | finish, s, k => if s.rest.isEmpty then k s else none
  | finishLine, s, k => if s.rest.isEmpty || s.rest = ['\n'] then k s else none
  | group n r, s, k => run ignoreCase r s fun t => k (t.capture n ⟨s.rest, t.pos - s.pos⟩)
  | backref n, s, k =>
    match s.captured? n with
    | none => none
    | some c =>
      match stripText ignoreCase c.text s.rest with
      | none => none
      | some rest => k { s with pos := s.pos + c.length, rest }
  | seq a b, s, k => run ignoreCase a s fun t => run ignoreCase b t k
  | alt a b, s, k =>
    match run ignoreCase a s k with
    | some x => some x
    | none => run ignoreCase b s k
  | rep min max r, s, k =>
    match r.unit? ignoreCase with
    | some test => sweep test s.captures k s.rest s.pos min max
    | none => rounds (run ignoreCase r) min max (roundLimit min s) 0 none s k

end Regex

end StreamEditor
