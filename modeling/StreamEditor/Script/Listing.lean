import StreamEditor.Script.Command

namespace StreamEditor

def absent : Text := ['N', 'o', 'n', 'e']

namespace Address

def listing : Address → Text
  | line n => Text.ofNumber n
  | last => ['$']
  | regexp source ignoreCase _ =>
    if ignoreCase then Text.padRight 8 source ++ ['|', 'i'] else source

end Address

namespace Substitution

def flags (s : Substitution) : Text :=
  (if s.count = 0 then ['g'] else if s.count = 1 then [] else Text.ofNumber s.count) ++
    (if s.print then ['p'] else []) ++ (if s.ignoreCase then ['i'] else []) ++
    (if s.write then ['w'] else [])

def listing (s : Substitution) : Except Failure Text :=
  match s.pattern with
  | none => .error .patternMissing
  | some pattern =>
    let width := max 20 pattern.length + max 20 s.replacement.length
    let column := if width ≤ 40 then 20 else max 1 (20 - (width - 40))
    .ok (Text.padRight 20 pattern ++ '|' :: Text.padRight column s.replacement ++
      '|' :: Text.padLeft ' ' 1 s.flags ++ (if s.file.isEmpty then [] else ' ' :: s.file))

end Substitution

namespace Action

def listing : Action → Except Failure Text
  | openBlock | closeBlock => .ok absent
  | label t | append t | branch t | change t | insert t | read t | test t | write t => .ok t
  | substitute s => s.listing
  | transliterate y => .ok (Text.padRight 20 y.source ++ '|' :: Text.padRight 20 y.dest)
  | _ => .ok []

end Action

namespace Program

def linkNumber (p : Program) (link : Option Nat) : Nat :=
  ((link.bind fun i => p[i]?).map Command.number).getD 0

def rowOf (p : Program) (c : Command) : Except Failure Text := do
  let arguments ← c.action.listing
  let address (a : Option Address) := Text.padRight 10 ((a.map Address.listing).getD absent)
  .ok ('|' :: Text.join ['|']
    [Text.zeroPadded 3 c.number, Text.zeroPadded 3 (p.linkNumber c.next),
      Text.zeroPadded 3 (p.linkNumber c.branch), address c.first, address c.second,
      [if c.negated then '!' else ' '], [c.action.letter], Text.padRight 20 arguments] ++ ['|'])

def listing (p : Program) : Except Failure (List Text) := p.mapM p.rowOf

end Program

end StreamEditor
