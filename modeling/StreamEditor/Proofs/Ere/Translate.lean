import StreamEditor.Proofs.Dialect.Translation
import StreamEditor.Proofs.Ere.Lexemes

namespace StreamEditor

open Dialect

lemma keepsEscape_of_isSpecial {c : Char} (h : Atom.isSpecial c = true) : keepsEscape c = true := by
  simp only [Atom.isSpecial, keepsEscape, List.contains_eq_mem, decide_eq_true_eq] at *
  exact List.mem_append_left ['n', 't'] h

lemma isPlain_of_not_isSpecial {c : Char} (h : ¬ Atom.isSpecial c = true) : isPlain c = true := by
  rw [isPlain, Text.contains_eq_false (p := Atom.isSpecial) (by decide) (by simpa using h)]
  rfl

lemma SetItem.mem_written {i : SetItem} (hi : i.wellFormed = true) {c : Char} (hc : c ∈ i.written) :
    c ≠ ']' ∧ c ≠ '\\' := by
  cases i with
  | single d =>
    simp [written, wellFormed, plain] at hi hc
    simp [hc, hi]
  | range lo hi' =>
    simp [written, wellFormed, plain] at hi hc
    rcases hc with rfl | rfl | rfl <;> simp [hi]

lemma CharSet.mem_inside {s : CharSet} (hs : s.wellFormed = true) {c : Char} (hc : c ∈ s.inside) :
    c ≠ ']' ∧ c ≠ '\\' := by
  simp only [wellFormed, Bool.and_eq_true, List.all_eq_true] at hs
  rw [inside, List.mem_append] at hc
  rcases hc with hc | hc
  · have : c = '^' := by
      by_cases hn : s.negated = true <;> simp_all
    simp [this]
  · obtain ⟨i, hi, hc⟩ := List.mem_flatMap.1 hc
    exact SetItem.mem_written (hs.2 i hi) hc

lemma SetItem.written_ne_nil (i : SetItem) : i.written ≠ [] := by
  cases i <;> simp [written]

lemma CharSet.inside_ne_nil {s : CharSet} (hs : s.wellFormed = true) : s.inside ≠ [] := by
  obtain ⟨negated, items⟩ := s
  cases items with
  | nil => simp [wellFormed] at hs
  | cons i items => simp [inside, SetItem.written_ne_nil i]

section

variable (whole : Text) (previous : Option Char)

lemma translateFrom_bounds {u : Text} (hu : ∀ c ∈ u, isPlain c = true) {rest : Text}
    (h : rest.head?.any ['+', '*', '?', '{'].contains = false) :
    translateFrom whole previous ('{' :: (u ++ ['}']) ++ rest) =
      (translateFrom whole (some '}') rest).map ('{' :: (u ++ ['}']) ++ ·) := by
  have hb : ∀ c ∈ '{' :: u, isPlain c = true := List.forall_mem_cons.2 ⟨by decide, hu⟩
  have ht : '{' :: (u ++ ['}']) ++ rest = '{' :: u ++ '}' :: rest := by simp
  rw [ht, translateFrom_plain_text whole previous hb (by simp),
    translateFrom_quantifier whole previous (by decide) h]
  cases translateFrom whole (some '}') rest with
  | error e => rfl
  | ok t => simp [Except.map]

lemma translateFrom_repeated (q : Quantifier) {rest : Text}
    (h : rest.head?.any ['+', '*', '?', '{'].contains = false) :
    ∃ p, translateFrom whole previous (q.written ++ rest) =
      (translateFrom whole (some p) rest).map (q.written ++ ·) := by
  have hd (n : Nat) (c : Char) (hc : c ∈ Text.ofNumber n) : isPlain c = true :=
    isPlain_of_isAsciiDigit (Text.isAsciiDigit_of_mem_ofNumber hc)
  cases q with
  | star | plus | optional => exact ⟨_, translateFrom_quantifier whole previous (by decide) h⟩
  | exactly m => exact ⟨_, translateFrom_bounds whole previous (hd m) h⟩
  | atLeast m =>
    have hu : ∀ c ∈ Text.ofNumber m ++ [','], isPlain c = true := by
      intro c hc
      rcases List.mem_append.1 hc with hc | hc
      · exact hd m c hc
      · simp_all [isPlain]
    refine ⟨'}', ?_⟩
    simpa [Quantifier.written] using translateFrom_bounds whole previous hu h
  | between m n =>
    have hu : ∀ c ∈ Text.ofNumber m ++ ',' :: Text.ofNumber n, isPlain c = true := by
      intro c hc
      rcases List.mem_append.1 hc with hc | hc
      · exact hd m c hc
      · rcases List.mem_cons.1 hc with rfl | hc
        · decide
        · exact hd n c hc
    refine ⟨'}', ?_⟩
    simpa [Quantifier.written] using translateFrom_bounds whole previous hu h

lemma translateFrom_atom {a : Atom} (ha : a.wellFormed 9 [] = true) {rest : Text}
    (h : (Lexeme.atom a).accepts rest) :
    ∃ p, translateFrom whole previous (a.written ++ rest) =
      (translateFrom whole (some p) rest).map (a.written ++ ·) := by
  cases a with
  | char c =>
    refine ⟨c, ?_⟩
    by_cases hc : Atom.isSpecial c = true
    · simpa [Atom.written, hc] using
        translateFrom_escape whole previous (keepsEscape_of_isSpecial hc) rest
    · simpa [Atom.written, hc] using
        translateFrom_plain whole previous (isPlain_of_not_isSpecial hc) rest
  | any => exact ⟨_, translateFrom_plain whole previous (by decide) rest⟩
  | set s =>
    refine ⟨']', ?_⟩
    have hs := translateFrom_set whole previous (fun c hc => CharSet.mem_inside ha hc)
      (CharSet.inside_ne_nil ha) rest
    simpa [Atom.written, CharSet.written] using hs
  | reference k =>
    obtain ⟨d, hd, hk⟩ := Text.ofNumber_digit (n := k) (by simp [Atom.wellFormed] at ha; omega)
    refine ⟨d, ?_⟩
    rw [Atom.written, hd]
    exact translateFrom_reference whole previous (Text.isDigit_of_isAsciiDigit hk)
      (keepsEscape_of_isAsciiDigit hk) h

def allowsCaret (p : Option Char) : Prop := ∀ c ∈ p, c = '(' ∨ c = '|'

lemma translateFrom_lexeme {l : Lexeme} (hl : l.wellFormed = true) {rest : Text} (ha : l.accepts rest)
    (hp : l = .caret → allowsCaret previous) :
    ∃ p, (l = .opening ∨ l = .bar → allowsCaret (some p)) ∧
      translateFrom whole previous (l.written ++ rest) =
        (translateFrom whole (some p) rest).map (l.pattern ++ ·) := by
  cases l with
  | atom a =>
    obtain ⟨p, h⟩ := translateFrom_atom whole previous hl ha
    exact ⟨p, by simp, h⟩
  | opening => exact ⟨'(', by simp [allowsCaret], translateFrom_opening whole previous ha⟩
  | closing => exact ⟨')', by simp, translateFrom_plain whole previous (by decide) rest⟩
  | bar => exact ⟨'|', by simp [allowsCaret], translateFrom_plain whole previous (by decide) rest⟩
  | caret => exact ⟨'^', by simp, translateFrom_caret whole previous (hp rfl) rest⟩
  | dollar => exact ⟨'$', by simp, translateFrom_dollar whole previous ha⟩
  | repeated q =>
    obtain ⟨p, h⟩ := translateFrom_repeated whole previous q ha
    exact ⟨p, by simp, h⟩

end

-- The induction follows `protect`; what was translated last tells whether a caret may come next.
lemma translateFrom_lexemes (whole : Text) {ls : List Lexeme} (hl : ∀ l ∈ ls, l.wellFormed = true)
    {x : Lexeme} {previous : Option Char} (h : Adjacent (x :: ls))
    (hp : x = .opening ∨ x = .bar → allowsCaret previous) :
    translateFrom whole previous (ls.flatMap Lexeme.written) =
      .ok ((Lexeme.protect ls).flatMap Lexeme.pattern) := by
  fun_induction Lexeme.protect ls generalizing x previous with
  | case1 => exact translateFrom_nil whole previous
  | case2 k c ls hc ih =>
    obtain ⟨hk, -, hls⟩ : _ ∧ _ ∧ ∀ l ∈ ls, l.wellFormed = true := by
      simpa only [List.forall_mem_cons] using hl
    have hls' : Adjacent (.atom (.char c) :: ls) := (List.isChain_cons_cons.1 h).2.tail
    obtain ⟨d, hd, hda⟩ := Text.ofNumber_digit (n := k) (by
      simp only [Lexeme.wellFormed, Atom.wellFormed, Bool.and_eq_true, decide_eq_true_eq] at hk
      omega)
    have hs : Atom.isSpecial c = false := by
      by_contra hs
      simp [Lexeme.not_isDigit_of_isSpecial (by simpa using hs)] at hc
    have ht := translateFrom_reference_digit whole previous (Text.isDigit_of_isAsciiDigit hda)
      (keepsEscape_of_isAsciiDigit hda) hc (ls.flatMap Lexeme.written)
    rw [ih hls hls' (by simp)] at ht
    simpa [Lexeme.written, Lexeme.pattern, Atom.written, CharSet.written, CharSet.inside,
      SetItem.written, hd, hs, Except.map] using ht
  | case3 k c ls hc ih =>
    obtain ⟨hm, ht⟩ := List.isChain_cons_cons.1 h
    obtain ⟨hw, hws⟩ := List.forall_mem_cons.1 hl
    have ha : (Lexeme.atom (.reference k)).accepts
        ((Lexeme.atom (.char c) :: ls).flatMap Lexeme.written) :=
      Lexeme.accepts_written (List.isChain_cons_cons.1 ht).1 (by simpa [Lexeme.isDigit] using hc) _
    obtain ⟨p, -, he⟩ := translateFrom_lexeme whole previous hw ha (by simp)
    rw [List.flatMap_cons, he, ih hws ht (by simp)]
    rfl
  | case4 l ls hn ih =>
    obtain ⟨hm, ht⟩ := List.isChain_cons_cons.1 h
    obtain ⟨hw, hws⟩ := List.forall_mem_cons.1 hl
    have ha : l.accepts (ls.flatMap Lexeme.written) := by
      cases ls with
      | nil => exact l.accepts_nil
      | cons m ls =>
        refine Lexeme.accepts_written (List.isChain_cons_cons.1 ht).1 ?_ _
        rintro n rfl
        cases m with
        | atom a =>
          cases a with
          | char c => exact (hn n c ls rfl rfl).elim
          | _ => rfl
        | _ => rfl
    have hc : l = .caret → allowsCaret previous := by
      rintro rfl
      apply hp
      cases x <;> simp_all [Lexeme.mayPrecede]
    obtain ⟨p, hpa, he⟩ := translateFrom_lexeme whole previous hw ha hc
    rw [List.flatMap_cons, he, ih hws ht hpa]
    rfl

lemma translate_written {e : Ere} {opened : Nat} {enclosing : List Nat}
    (h : e.wellFormed opened enclosing = true) :
    translate e.written = .ok ((Lexeme.protect e.lexemes).flatMap Lexeme.pattern) := by
  have hc : Adjacent (.bar :: e.lexemes) := by
    simpa using e.adjacent_lexemes (.inr rfl) [] (fun y => List.isChain_singleton y)
  exact translateFrom_lexemes e.written (Ere.wellFormed_lexemes h) hc (by simp [allowsCaret])

end StreamEditor
