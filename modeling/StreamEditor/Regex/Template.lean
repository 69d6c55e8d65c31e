import StreamEditor.Regex.Basic
import StreamEditor.Regex.Search

/-!
Templates: texts with references to the groups of an occurrence. `\1` to `\99` and `\g<0>`, `\g<1>` and
so on refer to groups, a few letters after a backslash stand for control characters and the others make
no template, and a backslash before any other character stands for itself.
-/

namespace StreamEditor

inductive Piece where
  | char (c : Char)
  | group (index : Nat)
  deriving DecidableEq, Repr

abbrev Template := List Piece

namespace Template

def controls : List (Char × Char) :=
  [('a', Char.ofNat 7), ('b', Char.ofNat 8), ('f', Char.ofNat 12), ('n', '\n'), ('r', '\r'),
    ('t', '\t'), ('v', Char.ofNat 11), ('\\', '\\')]

def readGroup : Text → Option (Piece × Text)
  | '<' :: rest =>
    match rest.takeWhile Text.isAsciiDigit, rest.dropWhile Text.isAsciiDigit with
    | d :: ds, '>' :: rest' => some (.group (Text.toNumber (d :: ds)), rest')
    | _, _ => none
  | _ => none

def readEscape (c : Char) (rest : Text) : Option (Template × Text) :=
  if c = 'g' then (readGroup rest).map fun (p, rest') => ([p], rest')
  else if Text.isAsciiDigit c then
    match Regex.readNumbered c rest with
    | (.code n, rest') =>
      if n < Regex.codeLimit then some ([.char (Char.ofNat n)], rest') else none
    | (.group n, rest') => some ([.group n], rest')
  else
    match controls.lookup c with
    | some d => some ([.char d], rest)
    | none => if c.isAlpha then none else some ([.char '\\', .char c], rest)

theorem readGroup_length_le {t rest : Text} {p : Piece} (h : readGroup t = some (p, rest)) :
    rest.length ≤ t.length := by
  unfold readGroup at h
  split at h
  · rename_i rest'
    have hd := (List.dropWhile_sublist (l := rest') Text.isAsciiDigit).length_le
    split at h
    · rename_i hr
      rw [hr] at hd
      cases h
      simp only [List.length_cons] at *
      omega
    · simp at h
  · simp at h

theorem readEscape_length_le {c : Char} {t rest : Text} {ps : Template}
    (h : readEscape c t = some (ps, rest)) : rest.length ≤ t.length := by
  have hn := Regex.readNumbered_length_le c t
  unfold readEscape at h
  split at h
  · obtain ⟨⟨p, rest'⟩, hg, he⟩ := Option.map_eq_some_iff.1 h
    cases he
    exact readGroup_length_le hg
  · split at h
    · split at h
      · rename_i hr
        rw [hr] at hn
        split at h
        · cases h
          exact hn
        · simp at h
      · rename_i hr
        rw [hr] at hn
        cases h
        exact hn
    · split at h
      · cases h
        exact Nat.le_refl _
      · split at h
        · simp at h
        · cases h
          exact Nat.le_refl _

def parse (t : Text) : Option Template :=
  match t with
  | [] => some []
  | '\\' :: c :: rest =>
    match h : readEscape c rest with
    | none => none
    | some (ps, rest') =>
      have : rest'.length ≤ rest.length := readEscape_length_le h
      (parse rest').map (ps ++ ·)
  | ['\\'] => none
  | c :: rest => (parse rest).map (.char c :: ·)
termination_by t.length
decreasing_by all_goals simp only [List.length_cons]; omega

def fits (groups : Nat) (t : Template) : Bool :=
  t.all fun
    | .char _ => true
    | .group n => n ≤ groups

def expand (t : Template) (o : Occurrence) : Text :=
  t.flatMap fun
    | .char c => [c]
    | .group n => o.group n

end Template

/-- A subject with some occurrences replaced, the text between them kept. `pos` characters of the
subject are before `rest`, and the occurrences are in order. -/
def splice : Text → Nat → List (Occurrence × Text) → Text
  | rest, _, [] => rest
  | rest, pos, (o, new) :: more =>
    rest.take (o.start - pos) ++ new ++ splice (rest.drop (o.stop - pos)) o.stop more

def Template.substitute (t : Template) (subject : Text) (os : List Occurrence) : Text :=
  splice subject 0 (os.map fun o => (o, t.expand o))

namespace Regex

def replaceable (previous : Option Nat) : List Occurrence → List Occurrence
  | [] => []
  | o :: os =>
    if o.isEmpty && previous = some o.start then replaceable (some o.stop) os
    else o :: replaceable (some o.stop) os

def chosen (ignoreCase : Bool) (r : Regex) (count : Nat) (subject : Text) : List Occurrence :=
  if count = 0 then replaceable none (r.occurrences ignoreCase none subject)
  else (r.occurrences ignoreCase (some count) subject).drop (count - 1)

end Regex

end StreamEditor
