import StreamEditor.Dialect
import StreamEditor.Proofs.Dialect.Bracket
import StreamEditor.Proofs.Text.Number

namespace StreamEditor.Dialect

variable (whole : Text) (previous : Option Char)

def isPlain (c : Char) : Bool := !(['\\', '[', '^', '$', '+', '*', '?', '}', '('].contains c)

lemma isPlain_of_isAsciiDigit {c : Char} (h : Text.isAsciiDigit c = true) : isPlain c = true := by
  rw [isPlain, Text.contains_eq_false (p := fun d => !Text.isAsciiDigit d) (by decide) (by simp [h])]
  rfl

lemma keepsEscape_of_isAsciiDigit {c : Char} (h : Text.isAsciiDigit c = true) :
    keepsEscape c = false :=
  Text.contains_eq_false (p := fun d => !Text.isAsciiDigit d) (by decide) (by simp [h])

lemma translateFrom_nil : translateFrom whole previous [] = .ok [] := by
  rw [translateFrom]

lemma translateFrom_previous (p q : Option Char) {t : Text} (h : t.head? ≠ some '^') :
    translateFrom whole p t = translateFrom whole q t := by
  cases t with
  | nil => rw [translateFrom_nil, translateFrom_nil]
  | cons c rest =>
    have hc : c ≠ '^' := by simpa using h
    rw [translateFrom, translateFrom]
    simp [hc]

lemma translateFrom_plain {c : Char} (hc : isPlain c = true) (rest : Text) :
    translateFrom whole previous (c :: rest) =
      (translateFrom whole (some c) rest).map (c :: ·) := by
  rw [translateFrom]
  simp [isPlain] at hc
  simp [hc]

lemma translateFrom_escape {c : Char} (hc : keepsEscape c = true) (rest : Text) :
    translateFrom whole previous ('\\' :: c :: rest) =
      (translateFrom whole (some c) rest).map (['\\', c] ++ ·) := by
  rw [translateFrom]
  simp [convertEscape, hc]

lemma translateFrom_opening {rest : Text} (h : rest.head? ≠ some '?') :
    translateFrom whole previous ('(' :: rest) =
      (translateFrom whole (some '(') rest).map ('(' :: ·) := by
  rw [translateFrom]
  simp [h]

lemma translateFrom_caret (h : ∀ p ∈ previous, p = '(' ∨ p = '|') (rest : Text) :
    translateFrom whole previous ('^' :: rest) =
      (translateFrom whole (some '^') rest).map ('^' :: ·) := by
  have hp : previous.any (fun p => p ≠ '(' && p ≠ '|') = false := by
    cases previous with
    | none => rfl
    | some p => rcases h p rfl with rfl | rfl <;> rfl
  rw [translateFrom]
  simp only [hp]
  simp

lemma translateFrom_dollar {rest : Text} (h : ∀ n ∈ rest.head?, n = '|' ∨ n = ')') :
    translateFrom whole previous ('$' :: rest) =
      (translateFrom whole (some '$') rest).map (['\\', 'Z'] ++ ·) := by
  have hn : rest.head?.any (fun n => n ≠ '|' && n ≠ ')') = false := by
    cases hr : rest.head? with
    | none => rfl
    | some n => rcases h n hr with rfl | rfl <;> rfl
  rw [translateFrom]
  simp only [hn]
  simp

lemma translateFrom_quantifier {c : Char} (hc : ['+', '*', '?', '}'].contains c = true) {rest : Text}
    (h : rest.head?.any ['+', '*', '?', '{'].contains = false) :
    translateFrom whole previous (c :: rest) =
      (translateFrom whole (some c) rest).map (c :: ·) := by
  rw [translateFrom]
  have hne : c ≠ '\\' ∧ c ≠ '[' ∧ c ≠ '^' ∧ c ≠ '$' ∧ c ≠ '(' := by
    simp at hc
    rcases hc with rfl | rfl | rfl | rfl <;> decide
  simp only [hne, hc, h, false_and, if_false, if_true]
  rfl

lemma translateFrom_reference {d : Char} (hd : Text.isDigit d = true) (hk : keepsEscape d = false)
    {rest : Text} (h : rest.head?.any Text.isDigit = false) :
    translateFrom whole previous ('\\' :: d :: rest) =
      (translateFrom whole (some d) rest).map (['\\', d] ++ ·) := by
  rw [translateFrom]
  cases rest with
  | nil => simp [convertEscape, convertReference, hd, hk]
  | cons c rest =>
    have hc : Text.isDigit c = false := by simpa using h
    simp [convertEscape, convertReference, hd, hk, hc]

lemma translateFrom_reference_digit {d c : Char} (hd : Text.isDigit d = true)
    (hk : keepsEscape d = false) (hc : Text.isDigit c = true) (rest : Text) :
    translateFrom whole previous ('\\' :: d :: c :: rest) =
      (translateFrom whole (some c) rest).map (['\\', d, '[', c, ']'] ++ ·) := by
  rw [translateFrom]
  simp [convertEscape, convertReference, hd, hk, hc]

lemma setBody_plain (first : Bool) {inside : Text} (h : ∀ c ∈ inside, c ≠ ']' ∧ c ≠ '\\')
    (hf : first = true → inside ≠ []) (rest : Text) :
    setBody first (inside ++ ']' :: rest) = some (inside.length + 1, inside ++ [']']) := by
  induction inside generalizing first with
  | nil =>
    have hf : first = false := by simpa using hf
    simp [setBody, hf]
  | cons c inside ih =>
    obtain ⟨hc, hi⟩ := List.forall_mem_cons.1 h
    rw [List.cons_append, setBody_unescaped first hc.1 hc.2, ih false hi (by simp)]
    rfl

lemma translateFrom_set {inside : Text} (h : ∀ c ∈ inside, c ≠ ']' ∧ c ≠ '\\') (hi : inside ≠ [])
    (rest : Text) :
    translateFrom whole previous ('[' :: (inside ++ ']' :: rest)) =
      (translateFrom whole (some ']') rest).map ('[' :: (inside ++ [']']) ++ ·) := by
  rw [translateFrom]
  have hs := setBody_plain true h (fun _ => hi) rest
  have ht : ('[' :: (inside ++ ']' :: rest)).take (0 + 1 + (inside.length + 1)) =
      '[' :: (inside ++ [']']) := by
    rw [show 0 + 1 + (inside.length + 1) = inside.length + 1 + 1 by omega, List.take_succ_cons,
      List.take_length_add_append]
    rfl
  have hd : (inside ++ ']' :: rest).drop (0 + 1 + (inside.length + 1) - 1) = rest := by
    rw [show 0 + 1 + (inside.length + 1) - 1 = inside.length + 1 by omega,
      List.drop_length_add_append]
    rfl
  have hl : ('[' :: (inside ++ [']'])).getLast? = some ']' := List.getLast?_concat (l := '[' :: inside)
  simp only [convertSet, List.drop_succ_cons, List.drop_zero, hs, Option.map_some, ht, hd, hl]
  simp

lemma translateFrom_plain_text {u : Text} (hu : ∀ c ∈ u, isPlain c = true) {rest : Text}
    (h : rest.head? ≠ some '^') :
    translateFrom whole previous (u ++ rest) = (translateFrom whole previous rest).map (u ++ ·) := by
  induction u generalizing previous with
  | nil =>
    rw [List.nil_append]
    cases translateFrom whole previous rest <;> rfl
  | cons c u ih =>
    obtain ⟨hc, hu⟩ := List.forall_mem_cons.1 hu
    rw [List.cons_append, translateFrom_plain whole previous hc, ih (some c) hu,
      translateFrom_previous whole (some c) previous h]
    cases translateFrom whole previous rest <;> rfl

end StreamEditor.Dialect
