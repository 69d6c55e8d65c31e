import Mathlib.Data.List.Infix
import StreamEditor.Proofs.Dialect.Flip
import StreamEditor.Proofs.Dialect.Replacement
import StreamEditor.Proofs.Ere.Meaning
import StreamEditor.Proofs.Regex.Literal
import StreamEditor.Regexp

namespace StreamEditor

open Dialect Regex

def isBasicSpecial (c : Char) : Bool := ['\\', '.', '*', '[', ']', '^', '$'].contains c

def quoteBasic (w : Text) : Text := w.flatMap fun c => if isBasicSpecial c then ['\\', c] else [c]

def quoteReplacement (v : Text) : Text := v.flatMap fun c => if c = '\\' ∨ c = '&' then ['\\', c] else [c]

def Items.ofText : Text → Items
  | [] => .nil
  | c :: w => .atom (.char c) none (ofText w)

def Ere.ofText (w : Text) : Ere := .single false (Items.ofText w) false

lemma Items.lexemes_ofText (w : Text) : (Items.ofText w).lexemes = w.map fun c => .atom (.char c) := by
  induction w with
  | nil => rfl
  | cons c w ih => simp [Items.ofText, Items.lexemes, ih]

lemma Ere.lexemes_ofText (w : Text) : (Ere.ofText w).lexemes = w.map fun c => .atom (.char c) := by
  simp [Ere.ofText, Ere.lexemes, Items.lexemes_ofText]

lemma Ere.wellFormed_ofText (w : Text) : (Ere.ofText w).wellFormed 0 [] = true := by
  rw [Ere.ofText, Ere.wellFormed]
  induction w with
  | nil => rfl
  | cons c w ih => simpa [Items.ofText, Items.wellFormed, Atom.wellFormed] using ih

lemma Ere.regex_ofText (w : Text) : (Ere.ofText w).regex = literal w := by
  have hi : (Items.ofText w).regexes 0 = w.map .char := by
    induction w with
    | nil => rfl
    | cons c w ih => simp [Items.ofText, Items.regexes, quantified, Atom.regex, ih]
  simp [Ere.ofText, Ere.regex, Ere.branches, branchItems, hi, literal, ofBranches]

lemma Lexeme.protect_chars (w : Text) :
    protect (w.map fun c => .atom (.char c)) = w.map fun c => .atom (.char c) := by
  induction w with
  | nil => rfl
  | cons c w ih => simpa [protect] using ih

lemma isSpecial_eq (c : Char) : Atom.isSpecial c = (isBasicSpecial c || isFlipped c) := by
  simp [Atom.isSpecial, isBasicSpecial, isFlipped]
  grind

lemma flip_quoteBasic (w : Text) : Dialect.flip (quoteBasic w) = .ok (Ere.ofText w).written := by
  rw [Dialect.flip, Ere.written, Ere.lexemes_ofText]
  induction w with
  | nil => rfl
  | cons c w ih =>
    simp only [quoteBasic, List.flatMap_cons, List.map_cons, Lexeme.written, Atom.written,
      isSpecial_eq] at ih ⊢
    by_cases hb : isBasicSpecial c = true
    · have hf : isFlipped c = false := by
        simpa using Text.of_contains (p := fun d => !isFlipped d) (by decide) hb
      simp [hb, hf, flipAfter, ih, Except.map]
    · have hn {d : Char} (hd : isBasicSpecial d = true) : c ≠ d := by
        rintro rfl
        exact hb hd
      by_cases hf : isFlipped c = true <;>
        simp [hb, hf, flipAfter_char (hn (d := '[') (by decide)) (hn (d := '\\') (by decide)), ih,
          Except.map]

lemma parse_literal (w : Text) :
    Regex.parse ((Ere.ofText w).lexemes.flatMap Lexeme.pattern) = .ok (literal w) := by
  have hw := Ere.wellFormed_ofText w
  obtain ⟨b, hb, hf, -, hbody⟩ := Ere.buildFrom_lexemes [] hw []
  have ha : Lexeme.Apart (Ere.ofText w).lexemes := by
    have hp := Lexeme.apart_protect (Ere.ofText w).lexemes
    rwa [Ere.lexemes_ofText, Lexeme.protect_chars, ← Ere.lexemes_ofText] at hp
  rw [parse_pattern (Ere.wellFormed_lexemes hw) ha hb hf, hbody, ← Ere.regex_ofText]
  rfl

lemma convert_quoteBasic (w : Text) :
    Dialect.convert (quoteBasic w) false = .ok ((Ere.ofText w).lexemes.flatMap Lexeme.pattern) := by
  have ht := translate_written (Ere.wellFormed_ofText w)
  rw [Ere.lexemes_ofText, Lexeme.protect_chars, ← Ere.lexemes_ofText] at ht
  simpa [Dialect.convert, flip_quoteBasic, bind, Except.bind] using ht

lemma ofScript_quoteBasic {w : Text} (hw : w ≠ []) :
    Regexp.ofScript false false false (quoteBasic w) =
      .ok (some ⟨(Ere.ofText w).lexemes.flatMap Lexeme.pattern, false, some (literal w)⟩) := by
  have hq : (quoteBasic w).isEmpty = false := by
    obtain ⟨c, u, rfl⟩ := List.exists_cons_of_ne_nil hw
    rw [quoteBasic, List.flatMap_cons]
    split <;> rfl
  simp [Regexp.ofScript, hq, convert_quoteBasic, parse_literal, bind, Except.bind]

lemma pieces_quoteReplacement (v : Text) : pieces (quoteReplacement v) = v.map .char := by
  induction v with
  | nil => rfl
  | cons c v ih =>
    rw [quoteReplacement] at ih
    rw [quoteReplacement, List.flatMap_cons, List.map_cons]
    split
    · rename_i hc
      have hn : c ≠ 'n' ∧ Text.isAsciiDigit c = false := by
        rcases hc with rfl | rfl <;> decide
      simp [pieces_escape hn.1, hn.2, ih]
    · rename_i hc
      rw [not_or] at hc
      simp [pieces_char hc.1 hc.2, ih]

lemma expand_chars (v : Text) (o : Occurrence) : Template.expand (v.map .char) o = v := by
  induction v with
  | nil => rfl
  | cons c v ih => simpa [Template.expand] using ih

lemma fits_chars (v : Text) (groups : Nat) : Template.fits groups (v.map .char) = true := by
  simp [Template.fits]

section

variable {w : Text}

lemma chosen_literal (hw : w ≠ []) (s : Text) :
    (literal w).chosen false 0 s = (literal w).occurrences false none s := by
  rw [chosen, if_pos rfl]
  exact replaceable_eq_self (fun _ ho => mem_occurrencesFrom_literal hw ho) none

lemma substitute_literal (hw : w ≠ []) (v s : Text) :
    Template.substitute (v.map .char) s ((literal w).occurrences false none s) = Text.replaceAll w v s := by
  simp only [Template.substitute, expand_chars]
  exact splice_occurrencesFrom_literal hw v (by omega) 0 false

lemma replaceAll_of_not_infix (hw : w ≠ []) (v : Text) {s : Text} (h : ¬ w <:+: s) :
    Text.replaceAll w v s = s := by
  rw [← Text.firstIndex?_isSome_iff hw] at h
  exact Text.replaceAll_of_firstIndex?_none v (by simpa using h)

lemma substitute?_literal (hw : w ≠ []) (pattern v s : Text) :
    Regexp.substitute? ⟨pattern, false, some (literal w)⟩ (convertReplacement (quoteReplacement v)) 0 s =
      .ok (if w <:+: s then some (Text.replaceAll w v s) else none) := by
  have hc : ¬ Regexp.countLimit ≤ 0 := by decide
  simp only [Regexp.substitute?, Regexp.regex, if_neg hc, chosen_literal hw, parse_convertReplacement,
    pieces_quoteReplacement, fits_chars]
  by_cases h : w <:+: s
  · simp [h, (occurrences_literal_ne_nil hw s).2 h, substitute_literal hw]
  · have ho : (literal w).occurrences false none s = [] :=
      not_not.1 fun hn => h ((occurrences_literal_ne_nil hw s).1 hn)
    simp [h, ho]

lemma search_literal (hw : w ≠ []) (pattern s : Text) :
    Regexp.search ⟨pattern, false, some (literal w)⟩ s = .ok (decide (w <:+: s)) := by
  simp only [Regexp.search, Regexp.regex, find?, findFrom_literal hw, Option.isSome_map, Except.map]
  congr 1
  rw [Bool.eq_iff_iff, decide_eq_true_iff]
  exact Text.firstIndex?_isSome_iff hw s

end

/-- A quoted text is found exactly where it occurs, and replacing it by a quoted text replaces every
occurrence. -/
theorem quoted_substitution_replaces (w : Text) (hw : w ≠ []) :
    ∃ x, Regexp.ofScript false false false (quoteBasic w) = .ok (some x) ∧
      ∀ v s, x.search s = .ok (decide (w <:+: s)) ∧
        (x.substitute? (convertReplacement (quoteReplacement v)) 0 s).map (fun r => (r.isSome, r.getD s)) =
          .ok (decide (w <:+: s), Text.replaceAll w v s) := by
  refine ⟨_, ofScript_quoteBasic hw, fun v s => ⟨search_literal hw _ s, ?_⟩⟩
  rw [substitute?_literal hw]
  by_cases h : w <:+: s
  · simp [h, Except.map]
  · simp [h, Except.map, replaceAll_of_not_infix hw]

def sampleText : Text := ['\\', '[', '(', '?', '1', '{', '2', '}', '$', '\n']

theorem quoted_sampleText_replaces :
    sampleText ≠ [] ∧
    quoteBasic sampleText =
      ['\\', '\\', '\\', '[', '(', '?', '1', '{', '2', '}', '\\', '$', '\n'] ∧
    ∃ x, Regexp.ofScript false false false (quoteBasic sampleText) = .ok (some x) ∧
      ∀ v s, x.search s = .ok (decide (sampleText <:+: s)) ∧
        (x.substitute? (convertReplacement (quoteReplacement v)) 0 s).map (fun r => (r.isSome, r.getD s)) =
          .ok (decide (sampleText <:+: s), Text.replaceAll sampleText v s) :=
  ⟨by decide, by decide, quoted_substitution_replaces sampleText (by decide)⟩

end StreamEditor
