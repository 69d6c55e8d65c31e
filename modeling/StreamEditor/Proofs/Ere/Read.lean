import StreamEditor.Proofs.Ere.Translate
import StreamEditor.Proofs.Regex.Tokens

namespace StreamEditor

open Regex

namespace Quantifier

def lowDigits : Quantifier → Text
  | star => []
  | plus => ['1']
  | optional => ['0']
  | exactly m | atLeast m | between m _ => Text.ofNumber m

def highDigits : Quantifier → Text
  | star | plus | atLeast _ => []
  | optional => ['1']
  | exactly m | between _ m => Text.ofNumber m

lemma nextToken_written (q : Quantifier) (rest : Text) :
    nextToken (q.written ++ rest) = some (.bounds q.lowDigits q.highDigits, rest) := by
  have hd (n : Nat) (c : Char) (hc : c ∈ Text.ofNumber n) := Text.isAsciiDigit_of_mem_ofNumber hc
  cases q with
  | star | plus | optional => rfl
  | exactly m =>
    simpa [written, lowDigits, highDigits] using nextToken_exactly (hd m) (Text.ofNumber_ne_nil m) rest
  | atLeast m =>
    have hn : ∀ c ∈ ([] : Text), Text.isAsciiDigit c = true := by simp
    simpa [written, lowDigits, highDigits] using nextToken_range (hd m) hn rest
  | between m n => simpa [written, lowDigits, highDigits] using nextToken_range (hd m) (hd n) rest

end Quantifier

lemma isInner_of_plain {c : Char} (h : SetItem.plain c = true) : isInner c = true := by
  simp_all [SetItem.plain, isInner]

lemma head?_items {items : List SetItem} (h : ∀ i ∈ items, i.wellFormed = true) (rest : Text) :
    (items.flatMap SetItem.written ++ ']' :: rest).head? ≠ some '-' := by
  cases items with
  | nil => simp
  | cons i items =>
    have hi := h i List.mem_cons_self
    cases i <;> simp_all [SetItem.written, SetItem.wellFormed, SetItem.plain]

lemma setItems_written {items : List SetItem} (h : ∀ i ∈ items, i.wellFormed = true)
    (found : List SetItem) (hf : found ≠ [] ∨ items ≠ []) (rest : Text) :
    setItems found (items.flatMap SetItem.written ++ ']' :: rest) = some (found.reverse ++ items, rest) := by
  induction items generalizing found with
  | nil =>
    have hf : found ≠ [] := by simpa using hf
    simpa using setItems_closing hf rest
  | cons i items ih =>
    obtain ⟨hi, hs⟩ := List.forall_mem_cons.1 h
    have hr := ih hs (i :: found) (by simp)
    rw [List.reverse_cons, List.append_assoc] at hr
    refine Eq.trans ?_ hr
    rw [List.flatMap_cons, List.append_assoc]
    cases i with
    | single c => exact setItems_single (isInner_of_plain hi) (head?_items hs rest)
    | range lo hi' =>
      simp only [SetItem.wellFormed, Bool.and_eq_true, decide_eq_true_eq] at hi
      exact setItems_range (isInner_of_plain hi.1.1) (isInner_of_plain hi.1.2) hi.2 found _

lemma readSet_inside {s : CharSet} (h : s.wellFormed = true) (rest : Text) :
    readSet (s.inside ++ ']' :: rest) = some (s, rest) := by
  simp only [CharSet.wellFormed, Bool.and_eq_true, List.all_eq_true] at h
  obtain ⟨negated, items⟩ := s
  have hs := setItems_written h.2 [] (.inr (by simpa using h.1)) rest
  cases negated with
  | true => simp [CharSet.inside, readSet, hs]
  | false =>
    have hc : ∀ t, items.flatMap SetItem.written ++ ']' :: rest ≠ '^' :: t := by
      cases items with
      | nil => simp
      | cons i items =>
        have hi := h.2 i List.mem_cons_self
        cases i <;> simp_all [SetItem.written, SetItem.wellFormed, SetItem.plain]
    simp only [CharSet.inside]
    rw [readSet]
    · simp [hs]
    · simpa using hc

namespace Lexeme

def token : Lexeme → Token
  | atom (.reference k) => .reference k
  | atom a => .item a.regex
  | opening => .opening
  | closing => .closing
  | bar => .bar
  | caret => .item .start
  | dollar => .item .finish
  | repeated q => .bounds q.lowDigits q.highDigits

lemma nextToken_pattern {l : Lexeme} (hl : l.wellFormed = true) {rest : Text}
    (h : ∀ k, l = atom (.reference k) → rest.head?.any Text.isAsciiDigit = false) :
    nextToken (l.pattern ++ rest) = some (l.token, rest) := by
  cases l with
  | atom a =>
    cases a with
    | char c =>
      by_cases hc : Atom.isSpecial c = true
      · have ha : c.isAlphanum = false := by
          simpa using Text.of_contains (p := fun d => !d.isAlphanum) (by decide) hc
        simpa [pattern, written, token, Atom.written, Atom.regex, hc] using nextToken_escape ha rest
      · have ho : isOperator c = false :=
          Text.contains_eq_false (p := Atom.isSpecial) (by decide) (by simpa using hc)
        simpa [pattern, written, token, Atom.written, Atom.regex, hc] using nextToken_char ho rest
    | any => rfl
    | set s =>
      have hs := nextToken_set (readSet_inside hl rest)
      simpa [pattern, written, token, Atom.written, Atom.regex, CharSet.written] using hs
    | reference k =>
      simp only [wellFormed, Atom.wellFormed, Bool.and_eq_true, decide_eq_true_eq] at hl
      obtain ⟨d, hd, hda⟩ := Text.ofNumber_digit (n := k) (by omega)
      have hk : Text.digitValue d = k := by
        simpa [hd, Text.toNumber] using Text.toNumber_ofNumber k
      have h0 : d ≠ '0' := by
        rintro rfl
        have : k = 0 := hk.symm
        omega
      have ht := nextToken_reference hda h0 (h k rfl)
      rw [hk] at ht
      simpa [pattern, written, token, Atom.written, hd] using ht
  | repeated q => exact q.nextToken_written rest
  | _ => rfl

lemma wellFormed_protect {ls : List Lexeme} (h : ∀ l ∈ ls, l.wellFormed = true) :
    ∀ l ∈ protect ls, l.wellFormed = true := by
  fun_induction protect ls with
  | case1 => exact h
  | case2 k c ls hc ih =>
    simp only [List.forall_mem_cons] at h ⊢
    refine ⟨h.1, ?_, ih h.2.2⟩
    simpa [wellFormed, Atom.wellFormed, CharSet.wellFormed, SetItem.wellFormed, SetItem.plain] using
      Text.contains_eq_false (l := [']', '[', '\\', '^', '-']) (p := fun d => !Text.isDigit d)
        (by decide) (by simpa using hc)
  | case3 k c ls hc ih =>
    rw [List.forall_mem_cons] at h ⊢
    exact ⟨h.1, ih h.2⟩
  | case4 l ls hn ih =>
    rw [List.forall_mem_cons] at h ⊢
    exact ⟨h.1, ih h.2⟩

lemma head?_written_isAsciiDigit {l : Lexeme} (h : l.isDigit = false) (rest : Text) :
    (l.written ++ rest).head?.any Text.isAsciiDigit = false := by
  rw [← head?_written_isDigit] at h
  rw [head?_written_append]
  cases hw : l.written.head? with
  | none => rfl
  | some c =>
    rw [hw] at h
    by_contra hc
    have hd := Text.isDigit_of_isAsciiDigit (c := c) (by simpa using hc)
    simp [hd] at h

lemma head?_pattern_isAsciiDigit {l : Lexeme} (h : l.isDigit = false) (rest : Text) :
    (l.pattern ++ rest).head?.any Text.isAsciiDigit = false := by
  have hw := head?_written_isAsciiDigit h rest
  cases l with
  | dollar => rfl
  | _ => exact hw

lemma head?_protect (ls : List Lexeme) : (protect ls).head? = ls.head? := by
  fun_cases protect ls with
  | case1 => rfl
  | case2 => rfl
  | case3 => rfl
  | case4 => rfl

abbrev Apart (ls : List Lexeme) : Prop :=
  ls.IsChain fun a b => (∃ k, a = atom (.reference k)) → b.isDigit = false

lemma apart_protect (ls : List Lexeme) : Apart (protect ls) := by
  fun_induction protect ls with
  | case1 => exact List.isChain_nil
  | case2 k c ls hc ih =>
    refine List.isChain_cons_cons.2 ⟨fun _ => rfl, List.isChain_cons.2 ⟨?_, ih⟩⟩
    rintro y hy ⟨k, hk⟩
    simp at hk
  | case3 k c ls hc ih =>
    refine List.isChain_cons.2 ⟨?_, ih⟩
    intro y hy _
    rw [head?_protect] at hy
    cases hy
    simpa [isDigit] using hc
  | case4 l ls hn ih =>
    refine List.isChain_cons.2 ⟨?_, ih⟩
    rintro y hy ⟨k, rfl⟩
    rw [head?_protect] at hy
    cases ls with
    | nil => simp at hy
    | cons m ls =>
      cases hy
      cases y with
      | atom a =>
        cases a with
        | char c => exact (hn k c ls rfl rfl).elim
        | _ => rfl
      | _ => rfl

lemma tokens_pattern {ls : List Lexeme} (h : ∀ l ∈ ls, l.wellFormed = true) (ha : Apart ls) :
    tokens (ls.flatMap pattern) = ls.map token := by
  induction ls with
  | nil => exact tokens_nil
  | cons l ls ih =>
    obtain ⟨hl, hs⟩ := List.forall_mem_cons.1 h
    obtain ⟨hd, ha⟩ := List.isChain_cons.1 ha
    have hr : ∀ k, l = atom (.reference k) → (ls.flatMap pattern).head?.any Text.isAsciiDigit = false := by
      intro k hk
      cases ls with
      | nil => rfl
      | cons m ls => exact head?_pattern_isAsciiDigit (hd m rfl ⟨k, hk⟩) _
    rw [List.flatMap_cons, tokens_cons (nextToken_pattern hl hr), ih hs ha, List.map_cons]

end Lexeme

end StreamEditor
