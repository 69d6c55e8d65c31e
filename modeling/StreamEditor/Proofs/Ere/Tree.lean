import Mathlib.Tactic.Lemma
import StreamEditor.Dialect

namespace StreamEditor

inductive Quantifier where
  | star
  | plus
  | optional
  | exactly (count : Nat)
  | atLeast (count : Nat)
  | between (least most : Nat)
  deriving DecidableEq, Repr

inductive Atom where
  | char (c : Char)
  | any
  | set (s : CharSet)
  | reference (index : Nat)
  deriving DecidableEq, Repr

mutual

/-- Branches in order of preference; a caret may only start a branch, and a dollar may only end one. -/
inductive Ere where
  | single (caret : Bool) (items : Items) (dollar : Bool)
  | alt (caret : Bool) (items : Items) (dollar : Bool) (others : Ere)

inductive Items where
  | nil
  | atom (a : Atom) (q : Option Quantifier) (rest : Items)
  | group (body : Ere) (q : Option Quantifier) (rest : Items)

end

inductive Lexeme where
  | atom (a : Atom)
  | opening
  | closing
  | bar
  | caret
  | dollar
  | repeated (q : Quantifier)
  deriving DecidableEq, Repr

namespace SetItem

def written : SetItem → Text
  | .single c => [c]
  | .range lo hi => [lo, '-', hi]

def plain (c : Char) : Bool := !([']', '[', '\\', '^', '-'].contains c)

def wellFormed : SetItem → Bool
  | .single c => plain c
  | .range lo hi => plain lo && plain hi && lo ≤ hi

end SetItem

namespace CharSet

def inside (s : CharSet) : Text :=
  (if s.negated then ['^'] else []) ++ s.items.flatMap SetItem.written

def written (s : CharSet) : Text := '[' :: (s.inside ++ [']'])

def wellFormed (s : CharSet) : Bool := !s.items.isEmpty && s.items.all SetItem.wellFormed

end CharSet

namespace Quantifier

def written : Quantifier → Text
  | star => ['*']
  | plus => ['+']
  | optional => ['?']
  | exactly m => '{' :: (Text.ofNumber m ++ ['}'])
  | atLeast m => '{' :: (Text.ofNumber m ++ [',', '}'])
  | between m n => '{' :: (Text.ofNumber m ++ ',' :: (Text.ofNumber n ++ ['}']))

def least : Quantifier → Nat
  | star | optional => 0
  | plus => 1
  | exactly m | atLeast m | between m _ => m

def most : Quantifier → Option Nat
  | star | plus | atLeast _ => none
  | optional => some 1
  | exactly m | between _ m => some m

def wellFormed : Quantifier → Bool
  | star | plus | optional => true
  | exactly m | atLeast m => m < Regex.Builder.repetitionLimit
  | between m n => m ≤ n && n < Regex.Builder.repetitionLimit

end Quantifier

namespace Atom

def isSpecial (c : Char) : Bool :=
  ['\\', '.', '^', '$', '*', '+', '?', '(', ')', '{', '}', '[', ']', '|'].contains c

def written : Atom → Text
  | char c => if isSpecial c then ['\\', c] else [c]
  | any => ['.']
  | set s => s.written
  | reference k => '\\' :: Text.ofNumber k

def regex : Atom → Regex
  | char c => .char c
  | any => .any
  | set s => .set s
  | reference k => .backref k

def wellFormed (opened : Nat) (enclosing : List Nat) : Atom → Bool
  | char _ | any => true
  | set s => s.wellFormed
  | reference k => 1 ≤ k && k ≤ 9 && k ≤ opened && !enclosing.contains k

end Atom

namespace Lexeme

def written : Lexeme → Text
  | atom a => a.written
  | opening => ['(']
  | closing => [')']
  | bar => ['|']
  | caret => ['^']
  | dollar => ['$']
  | repeated q => q.written

end Lexeme

mutual

def Ere.lexemes : Ere → List Lexeme
  | .single caret items dollar =>
    (if caret then [.caret] else []) ++ (items.lexemes ++ if dollar then [.dollar] else [])
  | .alt caret items dollar others =>
    (if caret then [.caret] else []) ++
      (items.lexemes ++ ((if dollar then [.dollar] else []) ++ .bar :: others.lexemes))

def Items.lexemes : Items → List Lexeme
  | .nil => []
  | .atom a q rest => .atom a :: (q.toList.map .repeated ++ rest.lexemes)
  | .group body q rest =>
    .opening :: (body.lexemes ++ .closing :: (q.toList.map .repeated ++ rest.lexemes))

end

def Ere.written (e : Ere) : Text := e.lexemes.flatMap Lexeme.written

mutual

def Ere.groups : Ere → Nat
  | .single _ items _ => items.groups
  | .alt _ items _ others => items.groups + others.groups

def Items.groups : Items → Nat
  | .nil => 0
  | .atom _ _ rest => rest.groups
  | .group body _ rest => body.groups + 1 + rest.groups

end

mutual

def Ere.wellFormed (opened : Nat) (enclosing : List Nat) : Ere → Bool
  | .single _ items _ => items.wellFormed opened enclosing
  | .alt _ items _ others =>
    items.wellFormed opened enclosing && others.wellFormed (opened + items.groups) enclosing

def Items.wellFormed (opened : Nat) (enclosing : List Nat) : Items → Bool
  | .nil => true
  | .atom a q rest =>
    a.wellFormed opened enclosing && q.all Quantifier.wellFormed && rest.wellFormed opened enclosing
  | .group body q rest =>
    body.wellFormed (opened + 1) ((opened + 1) :: enclosing) && q.all Quantifier.wellFormed &&
      rest.wellFormed (opened + 1 + body.groups) enclosing

end

def quantified (r : Regex) : Option Quantifier → Regex
  | none => r
  | some q => .rep q.least q.most r

def branchItems (caret : Bool) (items : List Regex) (dollar : Bool) : List Regex :=
  (if caret then [.start] else []) ++ (items ++ if dollar then [.finish] else [])

mutual

def Ere.branches (opened : Nat) : Ere → List Regex
  | .single caret items dollar => [.ofItems (branchItems caret (items.regexes opened) dollar)]
  | .alt caret items dollar others =>
    .ofItems (branchItems caret (items.regexes opened) dollar) ::
      others.branches (opened + items.groups)

def Items.regexes (opened : Nat) : Items → List Regex
  | .nil => []
  | .atom a q rest => quantified a.regex q :: rest.regexes opened
  | .group body q rest =>
    quantified (.group (opened + 1) (.ofBranches (body.branches (opened + 1)))) q ::
      rest.regexes (opened + 1 + body.groups)

end

def Ere.regex (e : Ere) : Regex := .ofBranches (e.branches 0)

end StreamEditor
