import StreamEditor.Dialect
import StreamEditor.Regexp

namespace StreamEditor

inductive Address where
  | line (number : Nat)
  | last
  | regexp (source : Text) (ignoreCase : Bool) (prepared : Option Regexp)
  deriving DecidableEq, Repr

inductive Target where
  | pending
  | recalled
  | own (x : Regexp)
  deriving DecidableEq, Repr

structure Substitution where
  pattern : Option Text
  replacement : Text
  count : Nat
  print : Bool
  ignoreCase : Bool
  write : Bool
  file : Text
  target : Target
  deriving DecidableEq, Repr

structure Transliteration where
  source : Text
  dest : Text
  table : Option CharTable
  deriving DecidableEq, Repr

inductive Action where
  | openBlock
  | closeBlock
  | label (name : Text)
  | append (text : Text)
  | branch (label : Text)
  | change (text : Text)
  | delete
  | deleteFirst
  | lineNumber
  | get
  | getAppend
  | hold
  | holdAppend
  | insert (text : Text)
  | list
  | next
  | nextAppend
  | print
  | printFirst
  | quit
  | read (file : Text)
  | substitute (s : Substitution)
  | test (label : Text)
  | write (file : Text)
  | exchange
  | transliterate (y : Transliteration)
  deriving DecidableEq, Repr

/-- A command; its links are positions in the script, and no link leads to the end of the cycle. -/
structure Command where
  number : Nat
  first : Option Address
  second : Option Address
  negated : Bool
  action : Action
  next : Option Nat
  branch : Option Nat
  deriving DecidableEq, Repr

abbrev Program := List Command

namespace Action

def letter : Action → Char
  | openBlock => '{'
  | closeBlock => '}'
  | label _ => ':'
  | append _ => 'a'
  | branch _ => 'b'
  | change _ => 'c'
  | delete => 'd'
  | deleteFirst => 'D'
  | lineNumber => '='
  | get => 'g'
  | getAppend => 'G'
  | hold => 'h'
  | holdAppend => 'H'
  | insert _ => 'i'
  | list => 'l'
  | next => 'n'
  | nextAppend => 'N'
  | print => 'p'
  | printFirst => 'P'
  | quit => 'q'
  | read _ => 'r'
  | substitute _ => 's'
  | test _ => 't'
  | write _ => 'w'
  | exchange => 'x'
  | transliterate _ => 'y'

end Action

namespace Address

def isLast : Address → Bool
  | last => true
  | _ => false

end Address

def Program.asksLast (p : Program) : Bool :=
  p.any fun c => c.first.any Address.isLast || c.second.any Address.isLast

end StreamEditor
