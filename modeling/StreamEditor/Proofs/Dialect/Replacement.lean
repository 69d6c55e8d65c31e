import Mathlib.Tactic.Lemma
import StreamEditor.Dialect
import StreamEditor.Proofs.Regex.Tokens
import StreamEditor.Regex.Template

namespace StreamEditor

namespace Template

lemma parse_nil : parse [] = some [] := by
  rw [parse]

lemma parse_char {c : Char} (hc : c ≠ '\\') (rest : Text) :
    parse (c :: rest) = (parse rest).map (.char c :: ·) := by
  rw [parse]
  all_goals simp [hc]

lemma parse_escape {c : Char} {rest rest' : Text} {ps : Template} (h : readEscape c rest = some (ps, rest')) :
    parse ('\\' :: c :: rest) = (parse rest').map (ps ++ ·) := by
  rw [parse]
  split <;> rename_i heq <;> rw [h] at heq <;> cases heq
  rfl

lemma readGroup_digit {d : Char} (hd : Text.isAsciiDigit d = true) (rest : Text) :
    readGroup ('<' :: d :: '>' :: rest) = some (.group (Text.digitValue d), rest) := by
  have hn : Text.isAsciiDigit '>' = false := by decide
  simp [readGroup, hd, hn, Text.toNumber]

end Template

namespace Dialect

def referencePiece (d : Char) (rest : Text) : Piece :=
  if d = '0' ∧ rest.head?.any Text.isAsciiDigit = false then .char (Char.ofNat 0)
  else .group (Text.digitValue d)

def pieces : Text → Template
  | [] => []
  | '\\' :: 'n' :: rest => .char '\n' :: pieces rest
  | '\\' :: d :: rest =>
    (if Text.isAsciiDigit d then referencePiece d rest else .char d) :: pieces rest
  | ['\\'] => []
  | '&' :: rest => .group 0 :: pieces rest
  | c :: rest => .char c :: pieces rest

lemma ne_backslash_of_unmatched {c : Char} {rest : Text} (hl : c = '\\' → rest = [] → False)
    (hd : ∀ d rest', c = '\\' → rest = d :: rest' → False) : c ≠ '\\' := by
  intro hs
  cases rest with
  | nil => exact hl hs rfl
  | cons d rest => exact hd d rest hs rfl

lemma pieces_escape {d : Char} (hd : d ≠ 'n') (rest : Text) :
    pieces ('\\' :: d :: rest) =
      (if Text.isAsciiDigit d then referencePiece d rest else .char d) :: pieces rest := by
  rw [pieces]
  simpa using hd

lemma pieces_char {c : Char} (hs : c ≠ '\\') (ha : c ≠ '&') (rest : Text) :
    pieces (c :: rest) = .char c :: pieces rest := by
  rw [pieces]
  all_goals simp_all

lemma any_isAsciiDigit_head?_convertReplacement (t : Text) :
    (convertReplacement t).head?.any Text.isAsciiDigit = t.head?.any Text.isAsciiDigit := by
  have hs : Text.isAsciiDigit '\\' = false := by decide
  have ha : Text.isAsciiDigit '&' = false := by decide
  fun_cases convertReplacement t <;> simp_all

lemma readNumbered_zero {rest : Text} (h : rest.head?.any Text.isAsciiDigit = false) :
    Regex.readNumbered '0' rest = (.code 0, rest) := by
  cases rest with
  | nil => rfl
  | cons e rest =>
    have ho : Regex.isOctal e = false := by
      by_contra ho
      simp [Regex.isAsciiDigit_of_isOctal (by simpa using ho)] at h
    simp [Regex.readNumbered, ho, Regex.octalNumber]

lemma readEscape_digit {d : Char} (hd : Text.isAsciiDigit d = true) {rest : Text}
    (h : rest.head?.any Text.isAsciiDigit = false) :
    Template.readEscape d rest = some ([referencePiece d rest], rest) := by
  have hg : d ≠ 'g' := by
    rintro rfl
    exact absurd hd (by decide)
  by_cases h0 : d = '0'
  · subst h0
    simp [Template.readEscape, hd, readNumbered_zero h, referencePiece, h, Regex.codeLimit]
  · simp [Template.readEscape, hg, hd, Regex.readNumbered_digit h0 h, referencePiece, h0]

lemma parse_convertReplacement (t : Text) : Template.parse (convertReplacement t) = some (pieces t) := by
  fun_induction convertReplacement t with
  | case1 => exact Template.parse_nil
  | case2 rest ih =>
    rw [Template.parse_escape rfl, ih, pieces]
    rfl
  | case3 rest ih =>
    rw [Template.parse_escape rfl, ih]
    rfl
  | case4 rest ih =>
    rw [Template.parse_char (by decide), ih]
    rfl
  | case5 d rest hn hs ha hd hr ih =>
    have hg : Template.readEscape 'g' ('<' :: d :: '>' :: convertReplacement rest) =
        some ([.group (Text.digitValue d)], convertReplacement rest) := by
      simp [Template.readEscape, Template.readGroup_digit hd]
    rw [Template.parse_escape hg, ih, pieces_escape hn]
    simp [hd, hr, referencePiece]
  | case6 d rest hn hs ha hd hr ih =>
    have hc : (convertReplacement rest).head?.any Text.isAsciiDigit = false := by
      rw [any_isAsciiDigit_head?_convertReplacement]
      simpa using hr
    rw [Template.parse_escape (readEscape_digit hd hc), ih, pieces_escape hn]
    simp [hd, hr, hc, referencePiece]
  | case7 d rest hn hs ha hd ih =>
    rw [Template.parse_char hs, ih, pieces_escape hn]
    simp [hd]
  | case8 => exact Template.parse_nil
  | case9 rest ih =>
    rw [Template.parse_escape rfl, ih]
    rfl
  | case10 c rest _ _ _ hd hl hc ih =>
    have hs := ne_backslash_of_unmatched hl hd
    rw [Template.parse_char hs, ih, pieces_char hs hc]
    rfl

end Dialect

end StreamEditor
