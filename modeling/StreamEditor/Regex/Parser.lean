import StreamEditor.Regex.Basic

/-!
Reading a pattern. The text is cut into tokens, and the tokens are taken in order by a builder that
keeps the groups still open; a fault of the text is a token too, so that the first fault in reading
order is the one reported.
-/

namespace StreamEditor.Regex

inductive Error where
  | malformed
  | repetitionTooLarge
  | tooManyDigits (count : Nat)
  deriving DecidableEq, Repr

inductive Token where
  | item (r : Regex)
  | reference (index : Nat)
  | opening
  | closing
  | bar
  | bounds (lo hi : Text)
  | fault
  deriving DecidableEq, Repr

def setEscape (c : Char) : Option Char :=
  if c = 'n' then some '\n'
  else if c = 't' then some '\t'
  else if '0' ≤ c ∧ c ≤ '7' then some (Char.ofNat (Text.digitValue c))
  else if c.isAlphanum then none
  else some c

def setChar : Text → Option (Char × Text)
  | [] => none
  | '\\' :: c :: rest => (setEscape c).map (·, rest)
  | ['\\'] => none
  | c :: rest => some (c, rest)

theorem setChar_length {t rest : Text} {c : Char} (h : setChar t = some (c, rest)) :
    rest.length < t.length := by
  unfold setChar at h
  split at h
  · simp at h
  · obtain ⟨d, -, hd⟩ := Option.map_eq_some_iff.1 h
    cases hd
    simp only [List.length_cons]
    omega
  · simp at h
  · cases h
    simp

def setItems (found : List SetItem) (t : Text) : Option (List SetItem × Text) :=
  if !found.isEmpty && t.head? = some ']' then some (found.reverse, t.tail)
  else
    match h : setChar t with
    | none => none
    | some (c, '-' :: ']' :: rest) => some ((.single '-' :: .single c :: found).reverse, rest)
    | some (c, '-' :: rest) =>
      match h' : setChar rest with
      | none => none
      | some (d, rest') =>
        have : rest'.length < t.length := by
          have := setChar_length h
          have := setChar_length h'
          simp only [List.length_cons] at *
          omega
        if d < c then none else setItems (.range c d :: found) rest'
    | some (c, rest) =>
      have : rest.length < t.length := setChar_length h
      setItems (.single c :: found) rest
termination_by t.length

def readSet : Text → Option (CharSet × Text)
  | '^' :: t => (setItems [] t).map fun (items, rest) => (⟨true, items⟩, rest)
  | t => (setItems [] t).map fun (items, rest) => (⟨false, items⟩, rest)

def readBounds (t : Text) : Option (Text × Text × Text) :=
  let lo := t.takeWhile Text.isAsciiDigit
  match t.dropWhile Text.isAsciiDigit with
  | '}' :: rest => if lo.isEmpty then none else some (lo, lo, rest)
  | ',' :: t' =>
    match t'.dropWhile Text.isAsciiDigit with
    | '}' :: rest => some (lo, t'.takeWhile Text.isAsciiDigit, rest)
    | _ => none
  | _ => none

def readEscape (c : Char) (rest : Text) : Token × Text :=
  if c = 'n' then (.item (.char '\n'), rest)
  else if c = 't' then (.item (.char '\t'), rest)
  else if c = 'Z' then (.item .finish, rest)
  else if Text.isAsciiDigit c then
    match readNumbered c rest with
    | (.code n, rest') =>
      (if n < codeLimit then .item (.char (Char.ofNat n)) else .fault, rest')
    | (.group n, rest') => (.reference n, rest')
  else if c.isAlpha then (.fault, rest)
  else (.item (.char c), rest)

def nextToken : Text → Option (Token × Text)
  | [] => none
  | '\\' :: c :: rest => some (readEscape c rest)
  | ['\\'] => some (.fault, [])
  | '[' :: rest =>
    match readSet rest with
    | some (s, rest') => some (.item (.set s), rest')
    | none => some (.fault, [])
  | '{' :: rest =>
    match readBounds rest with
    | some (lo, hi, rest') => some (.bounds lo hi, rest')
    | none => some (.item (.char '{'), rest)
  | c :: rest =>
    let token :=
      if c = '.' then .item .any
      else if c = '^' then .item .start
      else if c = '$' then .item .finishLine
      else if c = '(' then .opening
      else if c = ')' then .closing
      else if c = '|' then .bar
      else if c = '*' then .bounds [] []
      else if c = '+' then .bounds ['1'] []
      else if c = '?' then .bounds ['0'] ['1']
      else .item (.char c)
    some (token, rest)

theorem setItems_length {found items : List SetItem} {t rest : Text}
    (h : setItems found t = some (items, rest)) : rest.length < t.length := by
  fun_induction setItems found t generalizing items rest with
  | case1 found t hc =>
    cases h
    cases t with
    | nil => simp at hc
    | cons => simp
  | case2 => simp at h
  | case3 found t _ c rest' hc =>
    cases h
    have := setChar_length hc
    simp only [List.length_cons] at this
    omega
  | case4 => simp at h
  | case5 => simp at h
  | case6 found t _ c rest' hne hc d rest'' hd hlt this ih =>
    have := ih h
    omega
  | case7 found t _ c rest' hne hne' hc this ih =>
    have := ih h
    omega

theorem readSet_length {t rest : Text} {s : CharSet} (h : readSet t = some (s, rest)) :
    rest.length < t.length := by
  unfold readSet at h
  split at h <;>
  · obtain ⟨⟨items, rest'⟩, hi, he⟩ := Option.map_eq_some_iff.1 h
    cases he
    have := setItems_length hi
    simp only [List.length_cons] at *
    omega

theorem dropWhile_length_le (p : Char → Bool) (t : Text) : (t.dropWhile p).length ≤ t.length :=
  (List.dropWhile_sublist p).length_le

theorem readBounds_length {t lo hi rest : Text} (h : readBounds t = some (lo, hi, rest)) :
    rest.length < t.length := by
  have h1 := dropWhile_length_le Text.isAsciiDigit t
  unfold readBounds at h
  simp only at h
  split at h
  · rename_i rest' he
    split at h
    · simp at h
    · cases h
      rw [he, List.length_cons] at h1
      exact h1
  · rename_i t' he
    have h2 := dropWhile_length_le Text.isAsciiDigit t'
    rw [he] at h1
    split at h
    · rename_i rest' he'
      cases h
      rw [he'] at h2
      simp only [List.length_cons] at *
      omega
    · simp at h
  · simp at h

theorem readEscape_length_le (c : Char) (rest : Text) :
    (readEscape c rest).2.length ≤ rest.length := by
  have := readNumbered_length_le c rest
  unfold readEscape
  repeat' split
  all_goals simp_all

theorem nextToken_length {t rest : Text} {k : Token} (h : nextToken t = some (k, rest)) :
    rest.length < t.length := by
  unfold nextToken at h
  split at h
  · simp at h
  · rename_i c rest'
    have hr := readEscape_length_le c rest'
    rw [Option.some.inj h] at hr
    dsimp only at hr
    simp only [List.length_cons]
    omega
  · cases h
    simp
  · split at h
    · rename_i hs
      cases h
      have := readSet_length hs
      simp only [List.length_cons]
      omega
    · cases h
      simp
  · split at h
    · rename_i hb
      cases h
      have := readBounds_length hb
      simp only [List.length_cons]
      omega
    · cases h
      simp
  · cases h
    simp

def tokens (t : Text) : List Token :=
  match h : nextToken t with
  | none => []
  | some (k, rest) =>
    have : rest.length < t.length := nextToken_length h
    k :: tokens rest
termination_by t.length

structure Frame where
  index : Nat
  branches : List Regex
  items : List Regex

/-- The pattern read so far: open groups, innermost first, finished branches and the items of the
current branch, both newest first, and the number of groups opened. -/
structure Builder where
  frames : List Frame
  branches : List Regex
  items : List Regex
  opened : Nat

namespace Builder

def initial : Builder := ⟨[], [], [], 0⟩

def body (b : Builder) : Regex :=
  ofBranches ((ofItems b.items.reverse :: b.branches).reverse)

def repetitionLimit : Nat := 4294967295

def bound (ds : Text) : Except Error (Option Nat) :=
  if ds.isEmpty then .ok none
  else if Text.digitLimit < ds.length then .error (.tooManyDigits ds.length)
  else if repetitionLimit ≤ Text.toNumber ds then .error .repetitionTooLarge
  else .ok (some (Text.toNumber ds))

def repeatLast (b : Builder) (lo hi : Text) : Except Error Builder := do
  let min := (← bound lo).getD 0
  let max ← bound hi
  if max.any (· < min) then .error .malformed
  else
    match b.items with
    | [] => .error .malformed
    | r :: rs =>
      if r.isAnchor || r.isRep then .error .malformed
      else .ok { b with items := .rep min max r :: rs }

def step (b : Builder) : Token → Except Error Builder
  | .item r => .ok { b with items := r :: b.items }
  | .reference n =>
    if n ≤ b.opened && !(b.frames.any (·.index = n)) then
      .ok { b with items := .backref n :: b.items }
    else .error .malformed
  | .opening =>
    .ok ⟨⟨b.opened + 1, b.branches, b.items⟩ :: b.frames, [], [], b.opened + 1⟩
  | .closing =>
    match b.frames with
    | [] => .error .malformed
    | f :: fs => .ok ⟨fs, f.branches, .group f.index b.body :: f.items, b.opened⟩
  | .bar => .ok { b with branches := ofItems b.items.reverse :: b.branches, items := [] }
  | .bounds lo hi => b.repeatLast lo hi
  | .fault => .error .malformed

def result (b : Builder) : Except Error Regex :=
  if b.frames.isEmpty then .ok b.body else .error .malformed

end Builder

def parse (t : Text) : Except Error Regex := do
  ((← (tokens t).foldlM Builder.step Builder.initial)).result

end StreamEditor.Regex
