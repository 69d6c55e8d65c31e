import StreamEditor.Outline.Parser

namespace StreamEditor.Outline

namespace Node

def kindName : Node → Text
  | char _ => "Char".toList
  | escaped _ => "Escaped".toList
  | any => "Any".toList
  | set _ => "Set".toList
  | quantified .. => "Quantifier".toList
  | counted .. => "Braces".toList
  | reference _ => "Backref".toList
  | sequence _ => "Seq".toList
  | group _ => "Group".toList
  | either .. => "Alt".toList
  | anchor _ => "Anchor".toList

end Node

def fieldLine (indent : Nat) (name : String) (className value : Text) : Text :=
  Text.spaces indent ++ "var ".toList ++ name.toList ++ " <class '".toList ++ className ++
    "'> ".toList ++ value

def plainField (indent : Nat) (name className : String) (value : Text) : List Text :=
  [fieldLine indent name className.toList value, Text.spaces indent ++ value]

def textField (indent : Nat) (name : String) (value : Text) : List Text :=
  plainField indent name "str" value

def optionalField (indent : Nat) (name : String) : Option Text → List Text
  | none => plainField indent name "NoneType" "None".toList
  | some value => textField indent name value

def listLine (indent : Nat) : Text := fieldLine indent "list" "list".toList "[...]".toList

def nodeLine (home : Text) (indent : Nat) (name : String) (n : Node) : Text :=
  fieldLine indent name (home ++ '.' :: n.kindName) n.text

namespace Node

mutual

def dumpAt (home : Text) (indent : Nat) (n : Node) : List Text :=
  (Text.spaces indent ++ n.kindName) :: n.dumpFields home (indent + 4)

def dumpFields (home : Text) (indent : Nat) : Node → List Text
  | char c | escaped c | anchor c => textField indent "char" [c]
  | any => []
  | set body => textField indent "set" body
  | quantified mark body =>
    textField indent "quantifier" [mark] ++
      nodeLine home indent "regast" body :: body.dumpAt home (indent + 4)
  | counted least most body =>
    textField indent "n1" least ++ optionalField indent "n2" most ++
      nodeLine home indent "regast" body :: body.dumpAt home (indent + 4)
  | reference digit => textField indent "digit" [digit]
  | sequence items | group items => listLine indent :: dumpAll home (indent + 4) items
  | either left right =>
    nodeLine home indent "alt1" left :: left.dumpAt home (indent + 4) ++
      nodeLine home indent "alt2" right :: right.dumpAt home (indent + 4)

def dumpAll (home : Text) (indent : Nat) : List Node → List Text
  | [] => []
  | n :: ns => n.dumpAt home indent ++ dumpAll home indent ns

end

def dump (home : Text) (n : Node) : List Text :=
  "Regast".toList :: nodeLine home 4 "regast" n :: n.dumpAt home 8

end Node

def samples : List String :=
  ["a", "abc", "^abc", "a^b", "abc$", "a$c", ".", "...", "a.b.", "a[0-9]bc", "a[^0-9]bc",
    "a[]0-9]bc", "a]c", "a(bcd)e", "a(b(c)d)e", "a((b(c)d)ef(gh))", "[12](abc[0-9]def)[]a-z]",
    "a\\(b", "\\a\\(\\b\\\\", "\\1\\2\\3", "\\14\\25\\36", "abc*", "abc+", "abc?",
    "abc\x7b3\x7dde", "abc\x7b3,\x7dde", "abc\x7b3,5\x7dde", "abc*?+\x7b5,9\x7d", "abc|def",
    "abc|def|ghi"]

def sampleLine (sample : Text) : Except Error Text := do
  let written := (← Node.parse sample).text
  let verdict := if written = sample then "pass" else "fail"
  .ok (verdict.toList ++ " ~".toList ++ sample ++ '~' :: written ++ ['~'])

def demonstration (home : Text) : Except Error (List Text) := do
  let lines ← samples.mapM fun s => sampleLine s.toList
  let last ← Node.parse "abc|def|ghi".toList
  .ok (lines ++ last.dump home)

end StreamEditor.Outline
