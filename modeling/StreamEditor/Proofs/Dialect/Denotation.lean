import StreamEditor.Proofs.Dialect.Replacement
import StreamEditor.Proofs.Regex.Replaced

namespace StreamEditor

open Dialect

namespace Replacement

inductive Sign where
  | whole
  | reference (digit : Char)
  | newline
  | escaped (c : Char)
  | lone
  | plain (c : Char)
  deriving DecidableEq

namespace Sign

def written : Sign → Text
  | whole => ['&']
  | reference d => ['\\', d]
  | newline => ['\\', 'n']
  | escaped c => ['\\', c]
  | lone => ['\\']
  | plain c => [c]

def text (o : Occurrence) : Sign → Text
  | whole => o.text
  | reference d => o.group (Text.digitValue d)
  | newline => ['\n']
  | escaped c => [c]
  | lone => []
  | plain c => [c]

def template : Sign → Template
  | whole => [.group 0]
  | reference d => [.group (Text.digitValue d)]
  | newline => [.char '\n']
  | escaped c => [.char c]
  | lone => []
  | plain c => [.char c]

end Sign

/-- The signs of a text from left to right. A reference has one digit, whatever comes after it. -/
def signs : Text → List Sign
  | [] => []
  | ['\\'] => [.lone]
  | '\\' :: c :: rest =>
    (if c = 'n' then .newline else if Text.isAsciiDigit c then .reference c else .escaped c) :: signs rest
  | c :: rest => (if c = '&' then .whole else .plain c) :: signs rest

lemma written_signs (t : Text) : (signs t).flatMap Sign.written = t := by
  fun_induction signs t with
  | case1 => rfl
  | case2 => rfl
  | case3 c rest ih =>
    rw [List.flatMap_cons, ih]
    split
    · simp_all [Sign.written]
    · split <;> rfl
  | case4 c rest _ _ ih =>
    rw [List.flatMap_cons, ih]
    split
    · simp_all [Sign.written]
    · rfl

lemma pieces_eq_signs {t : Text} (h : .reference '0' ∉ signs t) :
    pieces t = (signs t).flatMap Sign.template := by
  fun_induction signs t with
  | case1 => rfl
  | case2 => rfl
  | case3 c rest ih =>
    obtain ⟨hsign, hrest⟩ := not_or.1 (mt List.mem_cons.2 h)
    rw [List.flatMap_cons, ← ih hrest]
    by_cases hn : c = 'n'
    · subst hn
      rfl
    · rw [pieces_escape hn, if_neg hn]
      rw [if_neg hn] at hsign
      split at hsign <;> rename_i hd
      · have hzero : c ≠ '0' := fun hz => hsign (hz ▸ rfl)
        simp [hd, referencePiece, hzero, Sign.template]
      · simp [hd, Sign.template]
  | case4 c rest hl hd ih =>
    obtain ⟨-, hrest⟩ := not_or.1 (mt List.mem_cons.2 h)
    rw [List.flatMap_cons, ← ih hrest]
    by_cases ha : c = '&'
    · subst ha
      rfl
    · rw [pieces_char (ne_backslash_of_unmatched hl hd) ha, if_neg ha]
      rfl

lemma expand_template (o : Occurrence) (ss : List Sign) :
    Template.expand (ss.flatMap Sign.template) o = ss.flatMap (Sign.text o) := by
  rw [Template.expand, List.flatMap_assoc]
  apply List.flatMap_congr
  intro s _
  cases s <;> simp [Sign.template, Sign.text, Occurrence.group]

lemma fits_template {groups : Nat} {ss : List Sign}
    (h : ∀ d, .reference d ∈ ss → Text.digitValue d ≤ groups) :
    Template.fits groups (ss.flatMap Sign.template) = true := by
  rw [Template.fits, List.all_flatMap, List.all_eq_true]
  intro s hs
  cases s with
  | reference d => simpa [Sign.template] using h d hs
  | _ => rfl

end Replacement

open Replacement

/-- The text of a replacement without `\0` stands for what its signs stand for, at every occurrence of a pattern that
has the groups it refers to, and this is what a substitution puts in the place of the occurrences. -/
theorem replacement_stands_for_signs {x : Regexp} {r : Regex} (hx : x.compiled = some r) {text : Text}
    (hzero : .reference '0' ∉ signs text) (hgroups : ∀ d, .reference d ∈ signs text → Text.digitValue d ≤ r.groups) :
    (signs text).flatMap Sign.written = text ∧
      (∃ t, Template.parse (convertReplacement text) = some t ∧ t.fits r.groups = true ∧
        ∀ o, t.expand o = (signs text).flatMap (Sign.text o)) ∧
      ∀ count subject, count < Regexp.countLimit →
        x.substitute? (convertReplacement text) count subject =
          .ok (if r.chosen x.ignoreCase count subject = [] then none
            else some (splice subject 0
              ((r.chosen x.ignoreCase count subject).map fun o => (o, (signs text).flatMap (Sign.text o))))) := by
  have hparse := parse_convertReplacement text
  rw [pieces_eq_signs hzero] at hparse
  have hfits := fits_template hgroups
  refine ⟨written_signs text, ⟨_, hparse, hfits, fun o => expand_template o _⟩, fun count subject hcount => ?_⟩
  rw [substitute?_eq hx hparse hfits hcount, Template.substitute]
  simp only [expand_template]

def sampleGroups : Regexp :=
  ⟨['(', 'a', ')', '|', '(', 'b', ')'], false, some (.alt (.group 1 (.char 'a')) (.group 2 (.char 'b')))⟩

def sampleReplacement : Text := ['\\', '2', '0', '&', '\\', '1', '\\', '&', '\\', 'n', '\\', '\\', '1', '\\', '/', '\\']

theorem sampleReplacement_stands_for_signs :
    Regexp.ofScript false false false ['\\', '(', 'a', '\\', ')', '\\', '|', '\\', '(', 'b', '\\', ')'] =
        .ok (some sampleGroups) ∧
      signs sampleReplacement = [.reference '2', .plain '0', .whole, .reference '1', .escaped '&', .newline,
        .escaped '\\', .plain '1', .escaped '/', .lone] ∧
      sampleGroups.substitute? (convertReplacement sampleReplacement) 1 ['x', 'b', 'y'] =
        .ok (some ['x', 'b', '0', 'b', '&', '\n', '\\', '1', '/', 'y']) := by
  have hsigns : signs sampleReplacement = [.reference '2', .plain '0', .whole, .reference '1', .escaped '&', .newline,
      .escaped '\\', .plain '1', .escaped '/', .lone] := rfl
  have hzero : .reference '0' ∉ signs sampleReplacement := by decide
  have hgroups : ∀ d, .reference d ∈ signs sampleReplacement → Text.digitValue d ≤ 2 := by
    intro d hd
    rw [hsigns] at hd
    obtain rfl | rfl : d = '2' ∨ d = '1' := by simpa using hd
    · decide
    · decide
  have hx : sampleGroups.compiled = some (.alt (.group 1 (.char 'a')) (.group 2 (.char 'b'))) := rfl
  obtain ⟨-, -, hsubstitute⟩ := replacement_stands_for_signs hx hzero hgroups
  refine ⟨by decide +kernel, hsigns, (hsubstitute 1 ['x', 'b', 'y'] (by decide)).trans ?_⟩
  decide +kernel

section

variable (d : Char) (rest : Text) (t : Template)

lemma fits_referencePiece (groups : Nat) :
    Template.fits groups (referencePiece d rest :: t) = (decide (Text.digitValue d ≤ groups) && t.fits groups) := by
  by_cases h : d = '0' ∧ rest.head?.any Text.isAsciiDigit = false
  · have hzero : decide (Text.digitValue d ≤ groups) = true := by
      rw [h.1]
      exact decide_eq_true (Nat.zero_le groups)
    rw [referencePiece, if_pos h, hzero]
    rfl
  · rw [referencePiece, if_neg h]
    rfl

lemma expand_referencePiece (o : Occurrence) :
    Template.expand (referencePiece d rest :: t) o =
      (if d = '0' ∧ rest.head?.any Text.isAsciiDigit = false then [Char.ofNat 0] else o.group (Text.digitValue d)) ++
        t.expand o := by
  rw [referencePiece]
  by_cases h : d = '0' ∧ rest.head?.any Text.isAsciiDigit = false
  · rw [if_pos h, if_pos h]
    rfl
  · rw [if_neg h, if_neg h]
    rfl

end

/-- A reference to a group stands for the group whatever comes after it, but for `\0`, which stands for the character of
code zero unless a digit comes after it. -/
theorem reference_stands_for_group {d : Char} (hd : Text.isAsciiDigit d = true) (text : Text) :
    ∃ t u, Template.parse (convertReplacement text) = some t ∧
      Template.parse (convertReplacement ('\\' :: d :: text)) = some u ∧
      (∀ groups, u.fits groups = (decide (Text.digitValue d ≤ groups) && t.fits groups)) ∧
      ∀ o, u.expand o =
          (if d = '0' ∧ text.head?.any Text.isAsciiDigit = false then [Char.ofNat 0] else o.group (Text.digitValue d)) ++
            t.expand o ∧
        (u.expand o = o.group (Text.digitValue d) ++ t.expand o ↔
          d ≠ '0' ∨ text.head?.any Text.isAsciiDigit = true ∨ o.text = [Char.ofNat 0]) := by
  have hn : d ≠ 'n' := by
    rintro rfl
    exact absurd hd (by decide)
  have hparse := parse_convertReplacement ('\\' :: d :: text)
  rw [pieces_escape hn, if_pos hd] at hparse
  refine ⟨_, _, parse_convertReplacement text, hparse, fits_referencePiece d text _, fun o => ?_⟩
  have hexpand := expand_referencePiece d text (pieces text) o
  refine ⟨hexpand, ?_⟩
  rw [hexpand, List.append_left_inj]
  split
  · rename_i h
    obtain ⟨rfl, hhead⟩ := h
    have hgroup : o.group (Text.digitValue '0') = o.text := rfl
    simp [hgroup, hhead, eq_comm]
  · rename_i h
    refine iff_of_true rfl ?_
    by_cases hzero : d = '0'
    · exact .inr (.inl (by simpa [hzero] using h))
    · exact .inl hzero

theorem second_group_stands_before_zero :
    Text.isAsciiDigit '2' = true ∧
      ∃ t u, Template.parse (convertReplacement ['0', '&']) = some t ∧
        Template.parse (convertReplacement ['\\', '2', '0', '&']) = some u ∧
        ∀ o, u.expand o = o.group 2 ++ t.expand o := by
  have hd : Text.isAsciiDigit '2' = true := rfl
  obtain ⟨t, u, ht, hu, -, hexpand⟩ := reference_stands_for_group hd ['0', '&']
  exact ⟨hd, t, u, ht, hu, fun o => (hexpand o).2.2 (.inl (by decide))⟩

def sampleLetter : Regexp := ⟨['b'], false, some (.char 'b')⟩

theorem last_zero_stands_for_code :
    Regexp.ofScript false false false ['b'] = .ok (some sampleLetter) ∧
      (∃ t u o, Template.parse (convertReplacement []) = some t ∧
        Template.parse (convertReplacement ['\\', '0']) = some u ∧
        (Regex.char 'b').find? false ['a', 'b', 'c'] = some o ∧ o.group 0 = ['b'] ∧
        u.expand o ≠ o.group 0 ++ t.expand o) ∧
      sampleLetter.substitute? (convertReplacement ['\\', '0']) 1 ['a', 'b', 'c'] =
        .ok (some ['a', Char.ofNat 0, 'c']) := by
  refine ⟨by decide +kernel, ⟨[], [.char (Char.ofNat 0)], ⟨1, 2, ['b', 'c'], []⟩, ?_, ?_, ?_, rfl, ?_⟩, ?_⟩
  all_goals decide +kernel

end StreamEditor
