import StreamEditor.Text.Basic

/-!
Reading a tree. The regexp is cut into tokens, and a builder takes them in order. A bar ends the
group it stands in: the branch after it reaches to the end of the regexp, where a parenthesis that
closes nothing is a plain character.
-/

namespace StreamEditor.Outline

inductive Node where
  | char (c : Char)
  | escaped (c : Char)
  | any
  | set (body : Text)
  | quantified (mark : Char) (body : Node)
  | counted (least : Text) (most : Option Text) (body : Node)
  | reference (digit : Char)
  | sequence (items : List Node)
  | group (items : List Node)
  | either (left right : Node)
  | anchor (c : Char)

def bounds (least : Text) : Option Text → Text
  | none => '{' :: least ++ ['}']
  | some most => '{' :: least ++ ',' :: most ++ ['}']

namespace Node

mutual

def text : Node → Text
  | char c => [c]
  | escaped c => ['\\', c]
  | any => ['.']
  | set body => '[' :: body ++ [']']
  | quantified mark body => body.text ++ [mark]
  | counted least most body => body.text ++ bounds least most
  | reference digit => ['\\', digit]
  | sequence items => textOf items
  | group items => '(' :: textOf items ++ [')']
  | either left right => left.text ++ '|' :: right.text
  | anchor c => [c]

def textOf : List Node → Text
  | [] => []
  | n :: ns => n.text ++ textOf ns

end

@[simp] theorem textOf_append (ns ms : List Node) : textOf (ns ++ ms) = textOf ns ++ textOf ms := by
  induction ns with
  | nil => rfl
  | cons n ns ih => simp [textOf, ih]

end Node

inductive Error where
  | setUnclosed
  | boundsMalformed
  | noOperand
  deriving DecidableEq, Repr

def Error.message : Error → String
  | setUnclosed => "No closing bracket"
  | boundsMalformed => "Invalid content of \x7b\x7d"
  | noOperand => "pop from empty list"

inductive Token where
  | leaf (n : Node)
  | mark (c : Char)
  | bounds (least : Text) (most : Option Text)
  | opening
  | closing
  | bar
  | fault (e : Error)

def readBounds (t : Text) : Option (Text × Option Text × Text) :=
  match t.takeWhile Text.isDecimal, t.dropWhile Text.isDecimal with
  | [], _ => none
  | least, '}' :: rest => some (least, none, rest)
  | least, ',' :: t' =>
    match t'.dropWhile Text.isDecimal with
    | '}' :: rest => some (least, some (t'.takeWhile Text.isDecimal), rest)
    | _ => none
  | _, _ => none

def caret (previous : Option Char) : Node :=
  match previous with
  | none | some '(' | some '|' => .anchor '^'
  | _ => .char '^'

def dollar (rest : Text) : Node :=
  match rest with
  | [] | ')' :: _ | '|' :: _ => .anchor '$'
  | _ => .char '$'

def plainToken (previous : Option Char) (c : Char) (rest : Text) : Token :=
  if c = '.' then .leaf .any
  else if c = '^' then .leaf (caret previous)
  else if c = '$' then .leaf (dollar rest)
  else if c = '(' then .opening
  else if c = ')' then .closing
  else if c = '|' then .bar
  else if c = '*' ∨ c = '+' ∨ c = '?' then .mark c
  else .leaf (.char c)

def nextToken (previous : Option Char) : Text → Option (Token × Char × Text)
  | [] => none
  | ['\\'] => some (.leaf (.char '\\'), '\\', [])
  | '\\' :: c :: rest =>
    some (.leaf (if Text.isAsciiDigit c then .reference c else .escaped c), c, rest)
  | '[' :: rest =>
    match rest.dropWhile (· ≠ ']') with
    | [] => some (.fault .setUnclosed, '[', [])
    | _ :: rest' => some (.leaf (.set (rest.takeWhile (· ≠ ']'))), ']', rest')
  | '{' :: rest =>
    match readBounds rest with
    | none => some (.fault .boundsMalformed, '{', [])
    | some (least, most, rest') => some (.bounds least most, '}', rest')
  | c :: rest => some (plainToken previous c rest, c, rest)

theorem length_of_dropWhile_eq_cons {p : Char → Bool} {t rest : Text} {c : Char}
    (h : t.dropWhile p = c :: rest) : rest.length < t.length := by
  have hs := (List.dropWhile_suffix (l := t) p).length_le
  rw [h, List.length_cons] at hs
  omega

theorem readBounds_length {t least rest : Text} {most : Option Text}
    (h : readBounds t = some (least, most, rest)) : rest.length < t.length := by
  unfold readBounds at h
  split at h
  · simp at h
  · rename_i hd _
    cases h
    exact length_of_dropWhile_eq_cons hd
  · rename_i hd _
    split at h
    · rename_i he
      cases h
      exact Nat.lt_trans (length_of_dropWhile_eq_cons he) (length_of_dropWhile_eq_cons hd)
    · simp at h
  · simp at h

theorem nextToken_length {previous : Option Char} {t rest : Text} {token : Token} {c : Char}
    (h : nextToken previous t = some (token, c, rest)) : rest.length < t.length := by
  unfold nextToken at h
  split at h
  · simp at h
  · cases h
    simp
  · cases h
    simp only [List.length_cons]
    omega
  · split at h
    · cases h
      simp
    · rename_i hd
      cases h
      have := length_of_dropWhile_eq_cons hd
      simp only [List.length_cons]
      omega
  · split at h
    · cases h
      simp
    · rename_i hb
      cases h
      have := readBounds_length hb
      simp only [List.length_cons]
      omega
  · cases h
    simp

def tokensFrom (previous : Option Char) (t : Text) : List Token :=
  match h : nextToken previous t with
  | none => []
  | some (token, c, rest) =>
    have : rest.length < t.length := nextToken_length h
    token :: tokensFrom (some c) rest
termination_by t.length

def tokens (t : Text) : List Token := tokensFrom none t

inductive Frame where
  | paren (before : List Node)
  | bar (left : Node)

structure Builder where
  frames : List Frame
  items : List Node

namespace Builder

def push (b : Builder) (n : Node) : Builder := { b with items := n :: b.items }

def wrap (b : Builder) (f : Node → Node) : Except Error Builder :=
  match b.items with
  | [] => .error .noOperand
  | n :: ns => .ok { b with items := f n :: ns }

def take (b : Builder) : Token → Except Error Builder
  | .leaf n => .ok (b.push n)
  | .mark c => b.wrap (.quantified c)
  | .bounds least most => b.wrap (.counted least most)
  | .opening => .ok ⟨.paren b.items :: b.frames, []⟩
  | .closing =>
    match b.frames with
    | .paren before :: frames => .ok ⟨frames, .group b.items.reverse :: before⟩
    | _ => .ok (b.push (.char ')'))
  | .bar => .ok ⟨.bar (.sequence b.items.reverse) :: b.frames, []⟩
  | .fault e => .error e

def close (n : Node) : Frame → Node
  | .paren before => .sequence (n :: before).reverse
  | .bar left => .either left n

def finish (b : Builder) : Node := b.frames.foldl close (.sequence b.items.reverse)

end Builder

namespace Node

def unwrap : Node → Node
  | sequence [n] => n
  | n => n

def parse (t : Text) : Except Error Node := do
  let b ← (tokens t).foldlM Builder.take ⟨[], []⟩
  .ok b.finish.unwrap

end Node

end StreamEditor.Outline
