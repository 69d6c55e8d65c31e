import StreamEditor.Failure
import StreamEditor.Text.Basic

namespace StreamEditor.Dialect

/-- The distance to the bracket that closes the set at the beginning of the text. The first character
of the set, or the first after a caret, never closes it; after a caret it is no line feed. -/
def closingBracket? : Text → Option Nat
  | '[' :: '^' :: c :: rest =>
    if c = '\n' then none else (rest.findIdx? (· = ']')).map (· + 3)
  | '[' :: c :: rest => if c = '^' then none else (rest.findIdx? (· = ']')).map (· + 2)
  | _ => none

def setBody (first : Bool) : Text → Option (Nat × Text)
  | [] => none
  | ']' :: rest =>
    if first then (setBody false rest).map fun (n, t) => (n + 1, ']' :: t) else some (1, [']'])
  | '\\' :: 'n' :: rest => (setBody false rest).map fun (n, t) => (n + 2, '\\' :: 'n' :: t)
  | '\\' :: 't' :: rest => (setBody false rest).map fun (n, t) => (n + 2, '\\' :: 't' :: t)
  | '\\' :: rest => (setBody false rest).map fun (n, t) => (n + 1, '\\' :: '\\' :: t)
  | c :: rest => (setBody false rest).map fun (n, t) => (n + 1, c :: t)

def convertSet (regexp : Text) (i : Nat) : Option (Nat × Text) :=
  (setBody true (regexp.drop (i + 1))).map fun (n, t) => (i + 1 + n, '[' :: t)

theorem closingBracket?_lt {t : Text} {j : Nat} (h : closingBracket? t = some j) : j < t.length := by
  unfold closingBracket? at h
  split at h
  · split at h
    · simp at h
    · obtain ⟨k, hk, rfl⟩ := Option.map_eq_some_iff.1 h
      have := (List.findIdx?_eq_some_iff_getElem.1 hk).1
      simp only [List.length_cons]
      omega
  · split at h
    · simp at h
    · obtain ⟨k, hk, rfl⟩ := Option.map_eq_some_iff.1 h
      have := (List.findIdx?_eq_some_iff_getElem.1 hk).1
      simp only [List.length_cons]
      omega
  · simp at h

def isFlipped (c : Char) : Bool := ['(', ')', '{', '}', '|', '+', '?'].contains c

def flipAfter : Nat → Text → Except Failure Text
  | _, [] => .ok []
  | n + 1, c :: rest => (flipAfter n rest).map (c :: ·)
  | 0, '[' :: rest =>
    match closingBracket? ('[' :: rest) with
    | none => .error (.fault .setNotClosed)
    | some n => (flipAfter n rest).map ('[' :: ·)
  | 0, '\\' :: c :: rest =>
    if isFlipped c then (flipAfter 0 rest).map (c :: ·)
    else (flipAfter 0 rest).map ('\\' :: c :: ·)
  | 0, c :: rest =>
    if isFlipped c then (flipAfter 0 rest).map ('\\' :: c :: ·) else (flipAfter 0 rest).map (c :: ·)

def flip (t : Text) : Except Failure Text := flipAfter 0 t

def keepsEscape (c : Char) : Bool :=
  ['\\', '.', '^', '$', '*', '+', '?', '(', ')', '{', '}', '[', ']', '|', 'n', 't'].contains c

def convertReference (regexp : Text) (i : Nat) : Nat × Text :=
  match regexp.drop i with
  | a :: b :: c :: _ => if Text.isDigit c then (i + 3, [a, b, '[', c, ']']) else (i + 2, [a, b])
  | t => (i + 2, t)

def convertEscape (regexp : Text) (i : Nat) : Except Failure (Nat × Text) :=
  match regexp.drop i with
  | [] => .error .stringIndex
  | [_] => .error (.fault .illegalEscape)
  | a :: c :: _ =>
    if keepsEscape c then .ok (i + 2, [a, c])
    else if Text.isDigit c then .ok (convertReference regexp i)
    else .ok (i + 2, [c])

/-- The translation of what is left of a regexp after the character `previous`. -/
def translateFrom (whole : Text) (previous : Option Char) (t : Text) : Except Failure Text :=
  match t with
  | [] => .ok []
  | c :: rest =>
    if c = '\\' then
      match convertEscape t 0 with
      | .error e => .error e
      | .ok (n, u) => (translateFrom whole (t.take n).getLast? (rest.drop (n - 1))).map (u ++ ·)
    else if c = '[' then
      match convertSet t 0 with
      | none => .error .setUnclosed
      | some (n, u) => (translateFrom whole (t.take n).getLast? (rest.drop (n - 1))).map (u ++ ·)
    else if c = '^' ∧ previous.any (fun p => p ≠ '(' && p ≠ '|') then
      (translateFrom whole (some c) rest).map ('\\' :: '^' :: ·)
    else if c = '$' then
      if rest.head?.any (fun n => n ≠ '|' && n ≠ ')') then
        (translateFrom whole (some c) rest).map ('\\' :: '$' :: ·)
      else (translateFrom whole (some c) rest).map ('\\' :: 'Z' :: ·)
    else if ['+', '*', '?', '}'].contains c then
      if rest.head?.any ['+', '*', '?', '{'].contains then
        .error (.fault (.multipleQuantifier whole))
      else (translateFrom whole (some c) rest).map (c :: ·)
    else if c = '(' ∧ rest.head? = some '?' then .error (.fault (.nothingToRepeat whole))
    else (translateFrom whole (some c) rest).map (c :: ·)
termination_by t.length
decreasing_by all_goals simp only [List.length_drop, List.length_cons]; omega

def translate (regexp : Text) : Except Failure Text := translateFrom regexp none regexp

def convert (regexp : Text) (extended : Bool) : Except Failure Text :=
  if extended then translate regexp else flip regexp >>= translate

def convertReplacement : Text → Text
  | [] => []
  | '\\' :: 'n' :: rest => '\\' :: 'n' :: convertReplacement rest
  | '\\' :: '\\' :: rest => '\\' :: '\\' :: convertReplacement rest
  | '\\' :: '&' :: rest => '&' :: convertReplacement rest
  | '\\' :: d :: rest =>
    if Text.isAsciiDigit d then
      if rest.head?.any Text.isAsciiDigit then
        '\\' :: 'g' :: '<' :: d :: '>' :: convertReplacement rest
      else '\\' :: d :: convertReplacement rest
    else d :: convertReplacement rest
  | ['\\'] => []
  | '&' :: rest => '\\' :: 'g' :: '<' :: '0' :: '>' :: convertReplacement rest
  | c :: rest => c :: convertReplacement rest

def unescape : Text → Except Failure Text
  | [] => .ok []
  | ['\\'] => .error (.fault .transliterationEscape)
  | '\\' :: c :: rest =>
    (unescape rest).map ((if c = 'n' then '\n' else if c = 't' then '\t' else c) :: ·)
  | c :: rest => (unescape rest).map (c :: ·)

end StreamEditor.Dialect

namespace StreamEditor

abbrev CharTable := List (Char × Char)

namespace CharTable

def ofTexts? (source dest : Text) : Option CharTable :=
  if source.length = dest.length then some (source.zip dest).reverse else none

def apply (table : CharTable) (t : Text) : Text := t.map fun c => (table.lookup c).getD c

end CharTable

end StreamEditor
