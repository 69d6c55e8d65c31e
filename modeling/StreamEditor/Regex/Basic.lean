import StreamEditor.Text.Basic
import StreamEditor.Text.Case

namespace StreamEditor

inductive SetItem where
  | single (c : Char)
  | range (lo hi : Char)
  deriving DecidableEq, Repr

structure CharSet where
  negated : Bool
  items : List SetItem
  deriving DecidableEq, Repr

namespace SetItem

def contains (c : Char) : SetItem → Bool
  | .single d => c = d
  | .range lo hi => lo ≤ c && c ≤ hi

/-- Membership up to case. A single character beyond the basic plane stands only for the lower-case
letter it is; a range holds every character one of whose case variants it holds. -/
def containsLetter (c : Char) : SetItem → Bool
  | .single d =>
    if d.toNat ≤ 0xffff then Text.sameLetter d c else Text.lowerCode c.toNat = d.toNat
  | .range lo hi => (Text.variants c.toNat).any fun n => lo.toNat ≤ n && n ≤ hi.toNat

end SetItem

namespace CharSet

def contains (s : CharSet) (c : Char) : Bool := s.items.any (·.contains c) != s.negated

def containsLetter (s : CharSet) (c : Char) : Bool :=
  let inside :=
    match s.items.eraseDups with
    | [.single d] => Text.sameLetter d c
    | items => items.any (·.containsLetter c)
  inside != s.negated

end CharSet

inductive Regex where
  | empty
  | char (c : Char)
  | any
  | set (s : CharSet)
  | start
  | finish
  | finishLine
  | group (index : Nat) (body : Regex)
  | backref (index : Nat)
  | seq (first second : Regex)
  | alt (first second : Regex)
  | rep (min : Nat) (max : Option Nat) (body : Regex)
  deriving DecidableEq, Repr

namespace Regex

def isAnchor : Regex → Bool
  | start | finish | finishLine => true
  | _ => false

def isRep : Regex → Bool
  | rep .. => true
  | _ => false

def ofItems : List Regex → Regex
  | [] => empty
  | [r] => r
  | r :: rs => seq r (ofItems rs)

def ofBranches : List Regex → Regex
  | [] => empty
  | [r] => r
  | r :: rs => alt r (ofBranches rs)

def groups : Regex → Nat
  | group _ r => r.groups + 1
  | seq a b | alt a b => a.groups + b.groups
  | rep _ _ r => r.groups
  | _ => 0

def unit? (ignoreCase : Bool) : Regex → Option (Char → Bool)
  | char c => some (if ignoreCase then Text.sameLetter c else (· = c))
  | any => some fun _ => true
  | set s => some (if ignoreCase then s.containsLetter else s.contains)
  | _ => none

inductive Numbered where
  | code (value : Nat)
  | group (index : Nat)
  deriving DecidableEq, Repr

def isOctal (c : Char) : Bool := '0' ≤ c && c ≤ '7'

def octalNumber (ds : Text) : Nat := ds.foldl (fun n d => 8 * n + Text.digitValue d) 0

def codeLimit : Nat := 256

def readNumbered (d : Char) (rest : Text) : Numbered × Text :=
  let next := rest.take 2
  if d = '0' then
    (.code (octalNumber (next.takeWhile isOctal)), rest.drop (next.takeWhile isOctal).length)
  else if next.length = 2 ∧ (d :: next).all isOctal then
    (.code (octalNumber (d :: next)), rest.drop 2)
  else
    let more := (rest.take 1).takeWhile Text.isAsciiDigit
    (.group (Text.toNumber (d :: more)), rest.drop more.length)

theorem readNumbered_length_le (d : Char) (rest : Text) :
    (readNumbered d rest).2.length ≤ rest.length := by
  unfold readNumbered
  dsimp only
  split
  · exact (List.drop_sublist _ _).length_le
  · split <;> exact (List.drop_sublist _ _).length_le

end Regex

end StreamEditor
