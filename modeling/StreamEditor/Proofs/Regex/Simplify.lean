import Mathlib.Tactic.Lemma
import StreamEditor.Regex.Matcher
import StreamEditor.Regex.Parser

namespace StreamEditor

namespace CharSet

lemma contains_single (c : Char) : (CharSet.mk false [.single c]).contains = fun d => decide (d = c) := by
  funext d
  simp [contains, SetItem.contains]

lemma containsLetter_single (c : Char) :
    (CharSet.mk false [.single c]).containsLetter = Text.sameLetter c := by
  funext d
  have he : [SetItem.single c].eraseDups = [.single c] := rfl
  simp [containsLetter, he]

end CharSet

namespace Regex

def simplify : Regex → Regex
  | set ⟨false, [.single c]⟩ => char c
  | group n r => group n r.simplify
  | seq a b => seq a.simplify b.simplify
  | alt a b => alt a.simplify b.simplify
  | rep lo hi r => rep lo hi r.simplify
  | r => r

lemma unit?_char (ignoreCase : Bool) (c : Char) :
    (char c).unit? ignoreCase = some (if ignoreCase then Text.sameLetter c else (· = c)) := rfl

lemma unit?_set (ignoreCase : Bool) (s : CharSet) :
    (set s).unit? ignoreCase = some (if ignoreCase then s.containsLetter else s.contains) := rfl

lemma unit?_simplify (ignoreCase : Bool) (r : Regex) : r.simplify.unit? ignoreCase = r.unit? ignoreCase := by
  fun_cases simplify r with
  | case1 c => rw [unit?_char, unit?_set, CharSet.contains_single, CharSet.containsLetter_single]
  | _ => rfl

lemma run_simplify {α : Type} (ignoreCase : Bool) (r : Regex) (s : Spot) (k : Spot → Option α) :
    r.simplify.run ignoreCase s k = r.run ignoreCase s k := by
  fun_induction simplify r generalizing s k with
  | case1 c => simp [run, CharSet.contains_single, CharSet.containsLetter_single]
  | case2 n r ih => simp only [run, ih]
  | case3 a b iha ihb => simp only [run, iha, ihb]
  | case4 a b iha ihb => simp only [run, iha, ihb]
  | case5 lo hi r ih =>
    have hr : r.simplify.run ignoreCase = r.run (α := α) ignoreCase := by
      funext s k
      exact ih s k
    simp only [run, unit?_simplify, hr]
  | case6 => rfl

lemma isAnchor_simplify (r : Regex) : r.simplify.isAnchor = r.isAnchor := by
  fun_cases simplify r <;> rfl

lemma isRep_simplify (r : Regex) : r.simplify.isRep = r.isRep := by
  fun_cases simplify r <;> rfl

lemma simplify_ofItems (rs : List Regex) : (ofItems rs).simplify = ofItems (rs.map simplify) := by
  fun_induction ofItems rs with
  | case1 => rfl
  | case2 r => rfl
  | case3 r rs hn ih =>
    cases rs with
    | nil => exact (hn rfl).elim
    | cons r' rs => simpa [ofItems, simplify] using ih

lemma simplify_ofBranches (rs : List Regex) :
    (ofBranches rs).simplify = ofBranches (rs.map simplify) := by
  fun_induction ofBranches rs with
  | case1 => rfl
  | case2 r => rfl
  | case3 r rs hn ih =>
    cases rs with
    | nil => exact (hn rfl).elim
    | cons r' rs => simpa [ofBranches, simplify] using ih

def Token.simplify : Token → Token
  | .item r => .item r.simplify
  | t => t

namespace Builder

def simplify (b : Builder) : Builder :=
  ⟨b.frames.map fun f => ⟨f.index, f.branches.map Regex.simplify, f.items.map Regex.simplify⟩,
    b.branches.map Regex.simplify, b.items.map Regex.simplify, b.opened⟩

lemma body_simplify (b : Builder) : b.simplify.body = b.body.simplify := by
  simp [body, simplify, simplify_ofBranches, simplify_ofItems]

lemma repeatLast_simplify (b : Builder) (lo hi : Text) :
    b.simplify.repeatLast lo hi = (b.repeatLast lo hi).map simplify := by
  unfold repeatLast
  cases bound lo with
  | error e => rfl
  | ok m =>
    cases bound hi with
    | error e => rfl
    | ok n =>
      simp only [bind, Except.bind]
      split
      · rfl
      · obtain ⟨frames, branches, items, opened⟩ := b
        cases items with
        | nil => rfl
        | cons r rs =>
          simp only [simplify, List.map_cons, isAnchor_simplify, isRep_simplify]
          split <;> rfl

lemma step_simplify (b : Builder) (t : Token) :
    b.simplify.step t.simplify = (b.step t).map simplify := by
  cases t with
  | item r => rfl
  | reference n =>
    have hf : b.simplify.frames.any (·.index = n) = b.frames.any (·.index = n) := by
      simp [simplify, List.any_map, Function.comp_def]
    simp only [step, Token.simplify, hf]
    rw [show b.simplify.opened = b.opened from rfl]
    split <;> rfl
  | opening => rfl
  | closing =>
    obtain ⟨frames, branches, items, opened⟩ := b
    cases frames with
    | nil => rfl
    | cons f fs =>
      have hb := body_simplify ⟨f :: fs, branches, items, opened⟩
      simp only [step, Token.simplify, Except.map]
      simp only [simplify, List.map_cons, Regex.simplify] at hb ⊢
      rw [hb]
  | bar => simp [step, Token.simplify, simplify, simplify_ofItems, Except.map]
  | bounds lo hi => exact repeatLast_simplify b lo hi
  | fault => rfl

lemma foldlM_simplify (ts : List Token) (b : Builder) :
    (ts.map Token.simplify).foldlM step b.simplify = (ts.foldlM step b).map simplify := by
  induction ts generalizing b with
  | nil => rfl
  | cons t ts ih =>
    rw [List.map_cons, List.foldlM_cons, List.foldlM_cons, step_simplify]
    cases b.step t with
    | error e => rfl
    | ok b' => exact ih b'

end Builder

end Regex

end StreamEditor
