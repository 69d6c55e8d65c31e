import StreamEditor.Text.Basic
import StreamEditor.Text.Encoding

namespace StreamEditor.Package

abbrev Path := List Text

abbrev Tree := List (Path × Bytes)

inductive ReadError where
  | missing
  | isDirectory
  | notDirectory
  deriving DecidableEq, Repr

def initials (p : Path) : List Path := ((List.range p.length).drop 1).map p.take

namespace Tree

def isFile (t : Tree) (p : Path) : Bool := t.any (·.1 = p)

def isDirectory (t : Tree) (p : Path) : Bool :=
  p.isEmpty || t.any fun f => p.isPrefixOf f.1 && f.1 ≠ p

def directories (t : Tree) : List Path := (t.flatMap fun f => initials f.1).eraseDups

def below (t : Tree) (p : Path) : Tree :=
  t.filterMap fun f => if p.isPrefixOf f.1 && f.1 ≠ p then some (f.1.drop p.length, f.2) else none

def without (t : Tree) (p : Path) : Tree := t.filter fun f => !p.isPrefixOf f.1

def names (t : Tree) : List Text := (t.filterMap fun f => f.1.head?).eraseDups

def walk (t : Tree) (place : Path) : List Text → Except ReadError Path
  | [] => .ok place
  | step :: steps =>
    if t.isFile place then .error .notDirectory
    else if !t.isDirectory place then .error .missing
    else if step.isEmpty || step = ['.'] then walk t place steps
    else if step = ['.', '.'] then walk t place.dropLast steps
    else walk t (place ++ [step]) steps

def read (t : Tree) (parts : List Text) : Except ReadError Bytes := do
  let place ← t.walk [] (parts.flatMap (Text.splitAtChar '/'))
  match t.lookup place with
  | some contents => .ok contents
  | none => if t.isDirectory place then .error .isDirectory else .error .missing

end Tree

inductive VersionError where
  | unread (e : ReadError)
  | undecodable
  | undeclared
  deriving DecidableEq, Repr

def VersionError.message : VersionError → String
  | undeclared => "Unable to find version string."
  | _ => ""

def isQuote (c : Char) : Bool := c = '\'' || c = '"'

def declaration : Text := "VERSION = ".toList

def quotedText? : Text → Option Text
  | [] => none
  | q :: rest =>
    if isQuote q && rest.any isQuote then some (rest.takeWhile (!isQuote ·)) else none

def declared? (t : Text) : Option Text :=
  if declaration.isPrefixOf t then quotedText? (t.drop declaration.length) else none

def versionFrom (lineStart : Bool) : Text → Option Text
  | [] => none
  | c :: rest =>
    match if lineStart then declared? (c :: rest) else none with
    | some v => some v
    | none => versionFrom (c = '\n') rest

def findVersion (t : Tree) (parts : List Text) : Except VersionError Text :=
  match t.read parts with
  | .error e => .error (.unread e)
  | .ok bytes =>
    match (Text.decodeUtf8 bytes).fault with
    | some _ => .error .undecodable
    | none =>
      match versionFrom true (Text.normalizeNewlines (Text.decodeUtf8 bytes).text) with
      | some v => .ok v
      | none => .error .undeclared

end StreamEditor.Package
