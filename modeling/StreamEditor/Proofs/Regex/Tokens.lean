import Mathlib.Data.List.TakeWhile
import Mathlib.Tactic.ByContra
import StreamEditor.Proofs.Text.Number
import StreamEditor.Regex.Parser

namespace StreamEditor.Regex

lemma tokens_nil : tokens [] = [] := by
  rw [tokens]
  rfl

lemma tokens_cons {t rest : Text} {k : Token} (h : nextToken t = some (k, rest)) :
    tokens t = k :: tokens rest := by
  rw [tokens]
  split <;> simp_all

def isOperator (c : Char) : Bool :=
  ['\\', '[', '{', '.', '^', '$', '(', ')', '|', '*', '+', '?'].contains c

lemma nextToken_char {c : Char} (hc : isOperator c = false) (rest : Text) :
    nextToken (c :: rest) = some (.item (.char c), rest) := by
  simp [isOperator] at hc
  rw [nextToken]
  · simp [hc]
  all_goals simp_all

lemma nextToken_escape {c : Char} (hc : c.isAlphanum = false) (rest : Text) :
    nextToken ('\\' :: c :: rest) = some (.item (.char c), rest) := by
  obtain ⟨ha, hd⟩ := Bool.or_eq_false_iff.1 hc
  have hn {d : Char} (h : d.isAlpha = true) : c ≠ d := by
    rintro rfl
    simp [h] at ha
  rw [nextToken, readEscape]
  simp [Text.isAsciiDigit_eq_isDigit, hd, ha, hn (d := 'n') (by decide), hn (d := 't') (by decide),
    hn (d := 'Z') (by decide)]

lemma isAsciiDigit_of_isOctal {c : Char} (h : isOctal c = true) : Text.isAsciiDigit c = true := by
  simp only [isOctal, Text.isAsciiDigit, Bool.and_eq_true, decide_eq_true_eq] at *
  exact ⟨h.1, Char.le_trans h.2 (by decide)⟩

lemma readNumbered_digit {d : Char} (hd : d ≠ '0') {rest : Text}
    (h : rest.head?.any Text.isAsciiDigit = false) :
    readNumbered d rest = (.group (Text.digitValue d), rest) := by
  cases rest with
  | nil => simp [readNumbered, hd, Text.toNumber]
  | cons e rest =>
    have he : Text.isAsciiDigit e = false := by simpa using h
    have ho : isOctal e = false := by
      by_contra ho
      simp [isAsciiDigit_of_isOctal (by simpa using ho)] at he
    simp [readNumbered, hd, he, ho, Text.toNumber]

lemma nextToken_reference {d : Char} (hd : Text.isAsciiDigit d = true) (h0 : d ≠ '0') {rest : Text}
    (h : rest.head?.any Text.isAsciiDigit = false) :
    nextToken ('\\' :: d :: rest) = some (.reference (Text.digitValue d), rest) := by
  have hn : ∀ c : Char, Text.isAsciiDigit c = false → d ≠ c := by
    rintro c hc rfl
    simp [hc] at hd
  rw [nextToken, readEscape]
  simp [hd, readNumbered_digit h0 h, hn 'n' (by decide), hn 't' (by decide), hn 'Z' (by decide)]

def isInner (c : Char) : Bool := !([']', '\\', '-'].contains c)

lemma setChar_inner {c : Char} (hc : isInner c = true) (rest : Text) :
    setChar (c :: rest) = some (c, rest) := by
  simp [isInner] at hc
  rw [setChar]
  all_goals simp_all

lemma ne_closing_of_isInner {c : Char} (hc : isInner c = true) : c ≠ ']' := by
  rintro rfl
  simp [isInner] at hc

lemma setItems_single {c : Char} (hc : isInner c = true) {found : List SetItem} {rest : Text}
    (h : rest.head? ≠ some '-') :
    setItems found (c :: rest) = setItems (.single c :: found) rest := by
  rw [setItems, if_neg (by simp [ne_closing_of_isInner hc])]
  split <;> rename_i heq <;> rw [setChar_inner hc] at heq
  · simp at heq
  · cases heq
    simp at h
  · cases heq
    simp at h
  · cases heq
    rfl

lemma setItems_range {lo hi : Char} (hlo : isInner lo = true) (hhi : isInner hi = true) (h : lo ≤ hi)
    (found : List SetItem) (rest : Text) :
    setItems found (lo :: '-' :: hi :: rest) = setItems (.range lo hi :: found) rest := by
  rw [setItems, if_neg (by simp [ne_closing_of_isInner hlo])]
  split <;> rename_i heq <;> rw [setChar_inner hlo] at heq
  · simp at heq
  · cases heq
    simp [isInner] at hhi
  · cases heq
    split <;> rename_i heq' <;> rw [setChar_inner hhi] at heq'
    · simp at heq'
    · cases heq'
      rw [if_neg (Char.not_lt.2 h)]
  · rename_i hn _
    cases heq
    exact (hn _ rfl).elim

lemma setItems_closing {found : List SetItem} (h : found ≠ []) (rest : Text) :
    setItems found (']' :: rest) = some (found.reverse, rest) := by
  rw [setItems]
  simp [h]

lemma nextToken_set {t rest : Text} {s : CharSet} (h : readSet t = some (s, rest)) :
    nextToken ('[' :: t) = some (.item (.set s), rest) := by
  simp [nextToken, h]

lemma takeWhile_digits {ds : Text} (hds : ∀ c ∈ ds, Text.isAsciiDigit c = true) {c : Char}
    (hc : Text.isAsciiDigit c = false) (rest : Text) :
    (ds ++ c :: rest).takeWhile Text.isAsciiDigit = ds := by
  rw [List.takeWhile_append_of_pos hds]
  simp [hc]

lemma dropWhile_digits {ds : Text} (hds : ∀ c ∈ ds, Text.isAsciiDigit c = true) {c : Char}
    (hc : Text.isAsciiDigit c = false) (rest : Text) :
    (ds ++ c :: rest).dropWhile Text.isAsciiDigit = c :: rest := by
  rw [List.dropWhile_append_of_pos hds]
  simp [hc]

lemma nextToken_exactly {ds : Text} (hds : ∀ c ∈ ds, Text.isAsciiDigit c = true) (hne : ds ≠ [])
    (rest : Text) :
    nextToken ('{' :: (ds ++ '}' :: rest)) = some (.bounds ds ds, rest) := by
  have hb : readBounds (ds ++ '}' :: rest) = some (ds, ds, rest) := by
    simp [readBounds, takeWhile_digits hds (c := '}') (by decide), dropWhile_digits hds (c := '}') (by decide), hne]
  simp [nextToken, hb]

lemma nextToken_range {ds es : Text} (hds : ∀ c ∈ ds, Text.isAsciiDigit c = true)
    (hes : ∀ c ∈ es, Text.isAsciiDigit c = true) (rest : Text) :
    nextToken ('{' :: (ds ++ ',' :: (es ++ '}' :: rest))) = some (.bounds ds es, rest) := by
  have hb : readBounds (ds ++ ',' :: (es ++ '}' :: rest)) = some (ds, es, rest) := by
    simp [readBounds, takeWhile_digits hds (c := ',') (by decide), dropWhile_digits hds (c := ',') (by decide),
      takeWhile_digits hes (c := '}') (by decide), dropWhile_digits hes (c := '}') (by decide)]
  simp [nextToken, hb]

section

variable {t rest : Text}

lemma plain_of_isAsciiDigit {c : Char} (hc : Text.isAsciiDigit c = true) : c ≠ '\\' ∧ c ≠ '[' := by
  constructor <;> rintro rfl <;> cases hc

lemma readBounds_eq_some {lo hi : Text} (h : readBounds t = some (lo, hi, rest)) :
    ∃ ds, t = ds ++ '}' :: rest ∧ ∀ c ∈ ds, c ≠ '\\' ∧ c ≠ '[' := by
  have hdigits (u : Text) : ∀ c ∈ u.takeWhile Text.isAsciiDigit, c ≠ '\\' ∧ c ≠ '[' :=
    fun c hc => plain_of_isAsciiDigit (List.mem_takeWhile_imp hc)
  have htext := List.takeWhile_append_dropWhile (p := Text.isAsciiDigit) (l := t)
  rw [readBounds] at h
  split at h
  · rename_i rest' hdrop
    split at h
    · cases h
    · cases h
      exact ⟨_, by rw [← hdrop, htext], hdigits t⟩
  · rename_i t' hdrop
    have htext' := List.takeWhile_append_dropWhile (p := Text.isAsciiDigit) (l := t')
    split at h
    · rename_i rest' hdrop'
      cases h
      refine ⟨t.takeWhile Text.isAsciiDigit ++ ',' :: t'.takeWhile Text.isAsciiDigit, ?_, ?_⟩
      · rw [List.append_assoc, List.cons_append, ← hdrop', htext', ← hdrop, htext]
      · exact List.forall_mem_append.2 ⟨hdigits t, List.forall_mem_cons.2 ⟨by decide, hdigits t'⟩⟩
    · cases h
  · cases h

lemma readNumbered_eq (d : Char) (t : Text) :
    ∃ ds, t = ds ++ (readNumbered d t).2 ∧ ∀ c ∈ ds, Text.isAsciiDigit c = true := by
  have htake {p : Char → Bool} (n : Nat) :
      t = (t.take n).takeWhile p ++ t.drop ((t.take n).takeWhile p).length :=
    (List.prefix_iff_eq_append.1 ((List.takeWhile_prefix p).trans (List.take_prefix n t))).symm
  rw [readNumbered]
  dsimp only
  split
  · exact ⟨_, htake 2, fun c hc => isAsciiDigit_of_isOctal (List.mem_takeWhile_imp hc)⟩
  · split
    · rename_i hoctal
      rw [List.all_cons, Bool.and_eq_true] at hoctal
      exact ⟨_, (List.take_append_drop 2 t).symm,
        fun c hc => isAsciiDigit_of_isOctal (List.all_eq_true.1 hoctal.2.2 c hc)⟩
    · exact ⟨_, htake 1, fun c hc => List.mem_takeWhile_imp hc⟩

lemma readEscape_eq {c : Char} {k : Token} (h : readEscape c t = (k, rest)) :
    (∀ lo hi, k ≠ .bounds lo hi) ∧ ∃ ds, t = ds ++ rest ∧ ∀ d ∈ ds, Text.isAsciiDigit d = true := by
  obtain ⟨ds, ht, hds⟩ := readNumbered_eq c t
  have hnone : ∃ ds, t = ds ++ t ∧ ∀ d ∈ ds, Text.isAsciiDigit d = true := ⟨[], rfl, List.forall_mem_nil _⟩
  rw [readEscape] at h
  split at h
  · cases h
    exact ⟨by simp, hnone⟩
  · split at h
    · cases h
      exact ⟨by simp, hnone⟩
    · split at h
      · cases h
        exact ⟨by simp, hnone⟩
      · split at h
        · split at h <;> rename_i hnumbered
          · cases h
            exact ⟨fun lo hi => by split <;> simp, ds, by rwa [hnumbered] at ht, hds⟩
          · cases h
            exact ⟨by simp, ds, by rwa [hnumbered] at ht, hds⟩
        · split at h
          · cases h
            exact ⟨by simp, hnone⟩
          · cases h
            exact ⟨by simp, hnone⟩

lemma nextToken_char_eq {c : Char} {k : Token} (hc : c ≠ '\\' ∧ c ≠ '[' ∧ c ≠ '{')
    (h : nextToken (c :: t) = some (k, rest)) :
    rest = t ∧ ∀ lo hi, k = .bounds lo hi → ['+', '*', '?', '}'].contains c = true := by
  rw [nextToken] at h
  · cases h
    refine ⟨rfl, fun lo hi hk => ?_⟩
    by_cases hq : ['+', '*', '?'].contains c = true
    · exact Text.of_contains (p := ['+', '*', '?', '}'].contains) (by decide) hq
    · simp only [List.contains_eq_mem, List.mem_cons, List.not_mem_nil, or_false, decide_eq_true_eq, not_or] at hq
      simp only [hq, if_false] at hk
      repeat' split at hk
      all_goals cases hk
  all_goals simp_all

end

end StreamEditor.Regex
