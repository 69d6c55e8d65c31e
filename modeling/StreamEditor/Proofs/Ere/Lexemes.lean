import Mathlib.Data.List.Chain
import StreamEditor.Proofs.Ere.Tree
import StreamEditor.Proofs.Text.Number

namespace StreamEditor

namespace Lexeme

def mayPrecede : Lexeme → Lexeme → Bool
  | opening, caret | bar, caret => true
  | _, caret => false
  | atom _, repeated _ | closing, repeated _ => true
  | _, repeated _ => false
  | dollar, closing | dollar, bar => true
  | dollar, _ => false
  | _, _ => true

def wellFormed : Lexeme → Bool
  | atom a => a.wellFormed 9 []
  | repeated q => q.wellFormed
  | _ => true

def pattern : Lexeme → Text
  | dollar => ['\\', 'Z']
  | l => l.written

def isDigit : Lexeme → Bool
  | atom (.char c) => Text.isDigit c
  | _ => false

def protect : List Lexeme → List Lexeme
  | [] => []
  | atom (.reference k) :: atom (.char c) :: ls =>
    if Text.isDigit c then atom (.reference k) :: atom (.set ⟨false, [.single c]⟩) :: protect ls
    else atom (.reference k) :: protect (atom (.char c) :: ls)
  | l :: ls => l :: protect ls

lemma written_ne_nil (l : Lexeme) : l.written ≠ [] := by
  cases l with
  | atom a =>
    cases a with
    | char c => by_cases hc : Atom.isSpecial c = true <;> simp [written, Atom.written, hc]
    | _ => simp [written, Atom.written, CharSet.written]
  | repeated q => cases q <;> simp [written, Quantifier.written]
  | _ => simp [written]

lemma head?_written_append (l : Lexeme) (t : Text) :
    (l.written ++ t).head? = l.written.head? := by
  obtain ⟨c, u, h⟩ := List.exists_cons_of_ne_nil l.written_ne_nil
  rw [h]
  rfl

lemma head?_written_atom (c : Char) :
    (atom (.char c)).written.head? = some (if Atom.isSpecial c then '\\' else c) := by
  by_cases hc : Atom.isSpecial c = true <;> simp [written, Atom.written, hc]

lemma head?_written_repeats {l : Lexeme} (h : ∀ q, l ≠ repeated q) :
    l.written.head?.any ['+', '*', '?', '{'].contains = false := by
  cases l with
  | atom a =>
    cases a with
    | char c =>
      rw [head?_written_atom]
      by_cases hc : Atom.isSpecial c = true
      · simp [hc]
      · simpa [hc] using Text.contains_eq_false (l := ['+', '*', '?', '{']) (p := Atom.isSpecial)
          (by decide) (by simpa using hc)
    | _ => simp [written, Atom.written, CharSet.written]
  | repeated q => exact absurd rfl (h q)
  | _ => simp [written]

lemma not_isDigit_of_isSpecial {c : Char} (hc : Atom.isSpecial c = true) : Text.isDigit c = false := by
  simpa using Text.of_contains (p := fun d => !Text.isDigit d) (by decide) hc

lemma head?_written_isDigit (l : Lexeme) : l.written.head?.any Text.isDigit = l.isDigit := by
  cases l with
  | atom a =>
    cases a with
    | char c =>
      rw [head?_written_atom]
      by_cases hc : Atom.isSpecial c = true
      · simp [hc, isDigit, not_isDigit_of_isSpecial hc]
        decide
      · simp [hc, isDigit]
    | _ =>
      simp [written, Atom.written, CharSet.written, isDigit]
      decide
  | repeated q =>
    cases q <;>
    · simp [written, Quantifier.written, isDigit]
      decide
  | _ =>
    simp [written, isDigit]
    decide

def accepts (rest : Text) : Lexeme → Prop
  | dollar => ∀ n ∈ rest.head?, n = '|' ∨ n = ')'
  | repeated _ => rest.head?.any ['+', '*', '?', '{'].contains = false
  | opening => rest.head? ≠ some '?'
  | atom (.reference _) => rest.head?.any Text.isDigit = false
  | _ => True

lemma accepts_nil (l : Lexeme) : l.accepts [] := by
  cases l with
  | atom a => cases a <;> simp [accepts]
  | _ => simp [accepts]

lemma accepts_written {l k : Lexeme} (h : l.mayPrecede k = true)
    (hd : ∀ n, l = atom (.reference n) → k.isDigit = false) (rest : Text) :
    l.accepts (k.written ++ rest) := by
  have hr (hk : ∀ q, k ≠ repeated q) := head?_written_repeats hk
  cases l with
  | atom a =>
    cases a with
    | reference n =>
      rw [accepts, head?_written_append, head?_written_isDigit]
      exact hd n rfl
    | _ => trivial
  | dollar => cases k <;> simp_all [mayPrecede, accepts, written]
  | repeated q =>
    rw [accepts, head?_written_append]
    exact hr (by rintro q rfl; simp [mayPrecede] at h)
  | opening =>
    have hk := hr (by rintro q rfl; simp [mayPrecede] at h)
    rw [accepts, head?_written_append]
    intro hq
    simp [hq] at hk
  | _ => trivial

end Lexeme

abbrev Adjacent (ls : List Lexeme) : Prop := ls.IsChain fun a b => a.mayPrecede b = true

def endsRepetition : Lexeme → Bool
  | .caret | .repeated _ => false
  | _ => true

lemma mayPrecede_of_endsRepetition {x l : Lexeme} (hx : x ≠ .dollar) (hl : endsRepetition l = true) :
    x.mayPrecede l = true := by
  cases l <;> simp_all [endsRepetition] <;> cases x <;> simp_all [Lexeme.mayPrecede]

-- The lexemes after an optional quantifier may stand after the quantified lexeme too.
lemma adjacent_quantified {x : Lexeme} (q : Option Quantifier) {ls : List Lexeme}
    (hx : ∀ q, x.mayPrecede (.repeated q) = true) (hd : x ≠ .dollar)
    (h : ∀ y, y ≠ .dollar → Adjacent (y :: ls)) :
    Adjacent (x :: (q.toList.map .repeated ++ ls)) := by
  cases q with
  | none => exact h x hd
  | some q => exact List.isChain_cons_cons.2 ⟨hx q, h _ (by simp)⟩

lemma adjacent_branch {items : List Lexeme} {ls : List Lexeme} (caret dollar : Bool) {x : Lexeme}
    (hx : x = .opening ∨ x = .bar)
    (hi : ∀ y ks, y ≠ .dollar → (∀ z, z ≠ .dollar → Adjacent (z :: ks)) → Adjacent (y :: (items ++ ks)))
    (h : ∀ y, Adjacent (y :: ls)) :
    Adjacent (x :: ((if caret then [.caret] else []) ++
      (items ++ ((if dollar then [.dollar] else []) ++ ls)))) := by
  have hd : ∀ z, z ≠ .dollar → Adjacent (z :: ((if dollar then [.dollar] else []) ++ ls)) := by
    intro z hz
    cases dollar with
    | false => exact h z
    | true => exact List.isChain_cons_cons.2 ⟨mayPrecede_of_endsRepetition hz rfl, h _⟩
  cases caret with
  | false =>
    refine hi x _ ?_ hd
    rcases hx with rfl | rfl <;> simp
  | true =>
    refine List.isChain_cons_cons.2 ⟨?_, hi .caret _ (by simp) hd⟩
    rcases hx with rfl | rfl <;> rfl

mutual

lemma Ere.adjacent_lexemes (e : Ere) {x : Lexeme} (hx : x = .opening ∨ x = .bar) (ls : List Lexeme)
    (h : ∀ y, Adjacent (y :: ls)) : Adjacent (x :: (e.lexemes ++ ls)) := by
  cases e with
  | single caret items dollar =>
    simpa [Ere.lexemes] using adjacent_branch caret dollar hx (fun _ _ => items.adjacent_lexemes) h
  | alt caret items dollar others =>
    have ho : ∀ y, Adjacent (y :: .bar :: (others.lexemes ++ ls)) := by
      intro y
      refine List.isChain_cons_cons.2 ⟨?_, others.adjacent_lexemes (.inr rfl) ls h⟩
      cases y <;> rfl
    simpa [Ere.lexemes] using adjacent_branch caret dollar hx (fun _ _ => items.adjacent_lexemes) ho

lemma Items.adjacent_lexemes (items : Items) {x : Lexeme} {ls : List Lexeme} (hx : x ≠ .dollar)
    (h : ∀ y, y ≠ .dollar → Adjacent (y :: ls)) : Adjacent (x :: (items.lexemes ++ ls)) := by
  cases items with
  | nil => exact h x hx
  | atom a q rest =>
    rw [Items.lexemes, List.cons_append, List.append_assoc]
    refine List.isChain_cons_cons.2 ⟨mayPrecede_of_endsRepetition hx rfl, ?_⟩
    refine adjacent_quantified q (by simp [Lexeme.mayPrecede]) (by simp) ?_
    intro y hy
    exact rest.adjacent_lexemes hy h
  | group body q rest =>
    rw [Items.lexemes, List.cons_append, List.append_assoc, List.cons_append, List.append_assoc]
    refine List.isChain_cons_cons.2 ⟨mayPrecede_of_endsRepetition hx rfl, ?_⟩
    refine body.adjacent_lexemes (.inl rfl) _ ?_
    intro y
    refine List.isChain_cons_cons.2 ⟨by cases y <;> rfl, ?_⟩
    refine adjacent_quantified q (by simp [Lexeme.mayPrecede]) (by simp) ?_
    intro z hz
    exact rest.adjacent_lexemes hz h

end

lemma Atom.wellFormed_nine {a : Atom} {opened : Nat} {enclosing : List Nat}
    (h : a.wellFormed opened enclosing = true) : a.wellFormed 9 [] = true := by
  cases a <;> simp_all [wellFormed]

mutual

lemma Ere.wellFormed_lexemes {e : Ere} {opened : Nat} {enclosing : List Nat}
    (h : e.wellFormed opened enclosing = true) : ∀ l ∈ e.lexemes, l.wellFormed = true := by
  cases e with
  | single caret items dollar =>
    have hi := Items.wellFormed_lexemes h
    cases caret <;> cases dollar <;> simpa [Ere.lexemes, Lexeme.wellFormed, or_imp, forall_and] using hi
  | alt caret items dollar others =>
    obtain ⟨hi, ho⟩ := Bool.and_eq_true_iff.1 h
    have hi := Items.wellFormed_lexemes hi
    have ho := Ere.wellFormed_lexemes ho
    cases caret <;> cases dollar <;>
      simpa [Ere.lexemes, Lexeme.wellFormed, or_imp, forall_and] using ⟨hi, ho⟩

lemma Items.wellFormed_lexemes {items : Items} {opened : Nat} {enclosing : List Nat}
    (h : items.wellFormed opened enclosing = true) : ∀ l ∈ items.lexemes, l.wellFormed = true := by
  cases items with
  | nil => simp [Items.lexemes]
  | atom a q rest =>
    simp only [Items.wellFormed, Bool.and_eq_true] at h
    have hr := Items.wellFormed_lexemes h.2
    have ha := Atom.wellFormed_nine h.1.1
    cases q <;> simp_all [Items.lexemes, Lexeme.wellFormed]
  | group body q rest =>
    simp only [Items.wellFormed, Bool.and_eq_true] at h
    have hb := Ere.wellFormed_lexemes h.1.1
    have hr := Items.wellFormed_lexemes h.2
    cases q <;> simp_all [Items.lexemes, Lexeme.wellFormed, or_imp]

end

end StreamEditor
