import StreamEditor.Proofs.Outcome
import StreamEditor.Script.Scan

/-! Bracket sets as they are written, and the two readers of them: one looks for the bracket that closes a set, the
other brings the set into the pattern language. -/

namespace StreamEditor.Dialect

/-- A bracket set, from its opening to its closing bracket. What stands first in it, or first after a caret, may be a
closing bracket of its own. -/
inductive BracketSet : Text → Prop
  | plain {c : Char} {body : Text} : c ≠ '^' → ']' ∉ body → BracketSet ('[' :: c :: (body ++ [']']))
  | negated {c : Char} {body : Text} : c ≠ '\n' → ']' ∉ body → BracketSet ('[' :: '^' :: c :: (body ++ [']']))

lemma findIdx?_closing {body : Text} (h : ']' ∉ body) (rest : Text) :
    (body ++ ']' :: rest).findIdx? (· = ']') = some body.length := by
  have hnone : body.findIdx? (· = ']') = none := by
    rw [List.findIdx?_eq_none_iff]
    intro c hc
    exact decide_eq_false fun he => h (he ▸ hc)
  simp [List.findIdx?_append, hnone, List.findIdx?_cons]

lemma take_of_findIdx?_closing {t : Text} {k : Nat} (h : t.findIdx? (· = ']') = some k) :
    ']' ∉ t.take k ∧ t.take (k + 1) = t.take k ++ [']'] := by
  obtain ⟨hlt, hk, hbefore⟩ := List.findIdx?_eq_some_iff_getElem.1 h
  constructor
  · intro hmem
    obtain ⟨j, hj, he⟩ := List.mem_take_iff_getElem.1 hmem
    exact hbefore j (by omega) (by simp [he])
  · rw [← List.take_append_getElem hlt, of_decide_eq_true hk]

lemma BracketSet.closingBracket?_eq {s : Text} (h : BracketSet s) (rest : Text) :
    ∃ n, s.length = n + 1 ∧ closingBracket? (s ++ rest) = some n := by
  cases h with
  | @plain c body hc hbody => exact ⟨body.length + 2, by simp, by simp [closingBracket?, hc, findIdx?_closing hbody]⟩
  | @negated c body hc hbody => exact ⟨body.length + 3, by simp, by simp [closingBracket?, hc, findIdx?_closing hbody]⟩

lemma BracketSet.of_closingBracket? {t : Text} {n : Nat} (h : closingBracket? t = some n) :
    BracketSet (t.take (n + 1)) := by
  unfold closingBracket? at h
  split at h
  · rename_i c rest
    split at h <;> rename_i hc
    · cases h
    · obtain ⟨k, hk, rfl⟩ := Option.map_eq_some_iff.1 h
      obtain ⟨hbody, htake⟩ := take_of_findIdx?_closing hk
      rw [show k + 3 + 1 = k + 1 + 3 from rfl, List.take_succ_cons, List.take_succ_cons, List.take_succ_cons, htake]
      exact .negated hc hbody
  · rename_i c rest _
    split at h <;> rename_i hc
    · cases h
    · obtain ⟨k, hk, rfl⟩ := Option.map_eq_some_iff.1 h
      obtain ⟨hbody, htake⟩ := take_of_findIdx?_closing hk
      rw [show k + 2 + 1 = k + 1 + 2 from rfl, List.take_succ_cons, List.take_succ_cons, htake]
      exact .plain hc hbody
  · cases h

def doubleBackslashes : Text → Text
  | [] => []
  | c :: rest =>
    if c = '\\' ∧ rest.head? ≠ some 'n' ∧ rest.head? ≠ some 't' then '\\' :: '\\' :: doubleBackslashes rest
    else c :: doubleBackslashes rest

lemma setBody_backslash (first : Bool) {rest : Text} (hn : rest.head? ≠ some 'n') (ht : rest.head? ≠ some 't') :
    setBody first ('\\' :: rest) = (setBody false rest).map fun r => (r.1 + 1, '\\' :: '\\' :: r.2) := by
  rw [setBody]
  all_goals rintro rest rfl
  · exact hn rfl
  · exact ht rfl

lemma setBody_unescaped (first : Bool) {c : Char} (hc : c ≠ ']') (hs : c ≠ '\\') (rest : Text) :
    setBody first (c :: rest) = (setBody false rest).map fun r => (r.1 + 1, c :: r.2) := by
  rw [setBody]
  all_goals simp_all

-- A letter that keeps the backslash before it is taken together with it, which comes to taking both one by one.
lemma setBody_letter (first : Bool) {d : Char} (hd : d = 'n' ∨ d = 't') (rest : Text) :
    setBody first ('\\' :: d :: rest) = (setBody false (d :: rest)).map fun r => (r.1 + 1, '\\' :: r.2) := by
  have hunescaped : d ≠ ']' ∧ d ≠ '\\' := by
    rcases hd with rfl | rfl <;> decide
  rw [setBody_unescaped false hunescaped.1 hunescaped.2, Option.map_map]
  rcases hd with rfl | rfl <;> rfl

lemma setBody_cons (first : Bool) {c : Char} (hc : c ≠ ']') (rest : Text) :
    setBody first (c :: rest) = (setBody false rest).map fun r =>
      (r.1 + 1, if c = '\\' ∧ rest.head? ≠ some 'n' ∧ rest.head? ≠ some 't' then '\\' :: '\\' :: r.2 else c :: r.2) := by
  split
  · rename_i h
    obtain ⟨rfl, hn, ht⟩ := h
    exact setBody_backslash first hn ht
  · rename_i h
    by_cases hs : c = '\\'
    · subst hs
      obtain ⟨d, rest', rfl, hd⟩ : ∃ d rest', rest = d :: rest' ∧ (d = 'n' ∨ d = 't') := by
        cases rest with
        | nil => simp at h
        | cons d rest' => exact ⟨d, rest', rfl, by simpa [Classical.or_iff_not_imp_left] using h⟩
      exact setBody_letter first hd rest'
    · exact setBody_unescaped first hc hs rest

lemma doubleBackslashes_take_succ (c : Char) (rest : Text) (k : Nat) :
    doubleBackslashes (c :: rest.take (k + 1)) =
      if c = '\\' ∧ rest.head? ≠ some 'n' ∧ rest.head? ≠ some 't' then
        '\\' :: '\\' :: doubleBackslashes (rest.take (k + 1))
      else c :: doubleBackslashes (rest.take (k + 1)) := by
  rw [doubleBackslashes, List.head?_take, if_neg (Nat.succ_ne_zero k)]

lemma setBody_false (t : Text) :
    setBody false t =
      (t.findIdx? (· = ']')).map fun k => (k + 1, doubleBackslashes (t.take (k + 1))) := by
  induction t with
  | nil => rfl
  | cons c rest ih =>
    rw [List.findIdx?_cons]
    by_cases hc : c = ']'
    · subst hc
      simp [setBody, doubleBackslashes]
    · rw [setBody_cons false hc, ih]
      simp [hc, Function.comp_def, doubleBackslashes_take_succ]

lemma setBody_true (c : Char) (rest : Text) :
    setBody true (c :: rest) =
      (rest.findIdx? (· = ']')).map fun k => (k + 2, doubleBackslashes (c :: rest.take (k + 1))) := by
  by_cases hc : c = ']'
  · subst hc
    simp [setBody, setBody_false, Function.comp_def, doubleBackslashes_take_succ]
  · rw [setBody_cons true hc, setBody_false]
    simp [Function.comp_def, doubleBackslashes_take_succ]

section

variable {text rest : Text} {i : Nat} {c : Char}

lemma convertSet_eq (h : text.drop i = '[' :: c :: rest) :
    convertSet text i =
      (rest.findIdx? (· = ']')).map fun k => (i + (k + 2) + 1, doubleBackslashes (text.extract i (i + (k + 2) + 1))) := by
  have hdrop : text.drop (i + 1) = c :: rest := by
    rw [← List.drop_drop, h]
    rfl
  rw [convertSet, hdrop, setBody_true, Option.map_map]
  congr 1
  funext k
  have hopening : doubleBackslashes ('[' :: c :: rest.take (k + 1)) = '[' :: doubleBackslashes (c :: rest.take (k + 1)) :=
    if_neg fun h => absurd h.1 (by decide)
  have htake : text.extract i (i + (k + 2) + 1) = '[' :: c :: rest.take (k + 1) := by
    rw [List.extract_eq_take_drop, h, show i + (k + 2) + 1 - i = k + 1 + 2 by omega]
    rfl
  rw [htake, hopening, Function.comp_apply, show i + (k + 2) + 1 = i + 1 + (k + 2) by omega]

lemma closingBracket?_eq (h : ¬(c = '^' ∧ (rest.head? = some ']' ∨ rest.head? = some '\n'))) :
    closingBracket? ('[' :: c :: rest) = (rest.findIdx? (· = ']')).map (· + 2) := by
  by_cases hc : c = '^'
  · subst hc
    cases rest with
    | nil => rfl
    | cons d rest =>
      have hd : d ≠ ']' ∧ d ≠ '\n' := by simpa using h
      rw [closingBracket?, if_neg hd.2, List.findIdx?_cons]
      simp [hd.1, Function.comp_def]
  · simp [closingBracket?, hc]

end

/-- The two readers agree on the set at a position: where one finds its end, the other ends too, with every backslash
doubled that no letter keeps, and where one finds no end, neither does the other. -/
def ReadersAgree (text : Text) (i : Nat) : Prop :=
  (∀ j, Script.setEnd text i = .ok j →
    convertSet text i = some (j + 1, doubleBackslashes (text.extract i (j + 1)))) ∧
  (Script.setEnd text i = .error (.fault .setNotClosed) → convertSet text i = none)

lemma readersAgree_iff {text : Text} {i : Nat} :
    ReadersAgree text i ↔ convertSet text i =
      (closingBracket? (text.drop i)).map fun k => (i + k + 1, doubleBackslashes (text.extract i (i + k + 1))) := by
  rw [ReadersAgree, Script.setEnd]
  cases closingBracket? (text.drop i) <;> simp

section

variable {text rest : Text} {i : Nat}

lemma readers_of_caret_closing (h : text.drop i = '[' :: '^' :: ']' :: rest) :
    convertSet text i = some (i + 3, ['[', '^', ']']) ∧ ∀ j, Script.setEnd text i = .ok j → i + 2 < j := by
  constructor
  · rw [convertSet_eq h]
    simp [List.findIdx?_cons, h, doubleBackslashes, Nat.add_assoc]
  · intro j hj
    rw [Script.setEnd, h, closingBracket?] at hj
    cases hk : rest.findIdx? (· = ']') with
    | none => simp [hk] at hj
    | some k =>
      simp [hk] at hj
      omega

lemma readers_of_caret_newline (h : text.drop i = '[' :: '^' :: '\n' :: rest) :
    Script.setEnd text i = .error (.fault .setNotClosed) ∧
      convertSet text i =
        ((text.drop i).findIdx? (· = ']')).map fun k => (i + k + 1, doubleBackslashes (text.extract i (i + k + 1))) := by
  constructor
  · rw [Script.setEnd, h]
    rfl
  · rw [convertSet_eq h, h]
    simp [List.findIdx?_cons, Function.comp_def, Nat.add_assoc]

-- Neither of the two beginnings on which the readers part.
lemma readersAgree_of_drop {t : Text} (h : text.drop i = '[' :: t) (hclosing : ¬['[', '^', ']'] <+: text.drop i)
    (hnewline : ¬['[', '^', '\n'] <+: text.drop i) : ReadersAgree text i := by
  rw [readersAgree_iff]
  cases t with
  | nil =>
    have hdrop : text.drop (i + 1) = [] := by
      rw [← List.drop_drop, h]
      rfl
    rw [convertSet, hdrop, h]
    rfl
  | cons c rest =>
    have hregular : ¬(c = '^' ∧ (rest.head? = some ']' ∨ rest.head? = some '\n')) := by
      rintro ⟨rfl, hhead | hhead⟩
      · obtain ⟨rest, rfl⟩ := List.head?_eq_some_iff.1 hhead
        exact hclosing ⟨rest, h.symm⟩
      · obtain ⟨rest, rfl⟩ := List.head?_eq_some_iff.1 hhead
        exact hnewline ⟨rest, h.symm⟩
    rw [convertSet_eq h, h, closingBracket?_eq hregular, Option.map_map]
    rfl

end

/-- Both readers agree on every set but those that begin with a caret and a closing bracket, which the translation ends
there, and those that begin with a caret and a newline, of which only the translation finds the end. -/
theorem set_readers_agree_iff {text : Text} {i : Nat} (h : text[i]? = some '[') :
    (ReadersAgree text i ↔
      ¬['[', '^', ']'] <+: text.drop i ∧ ¬(['[', '^', '\n'] <+: text.drop i ∧ ']' ∈ text.drop i)) ∧
    (['[', '^', ']'] <+: text.drop i →
      convertSet text i = some (i + 3, ['[', '^', ']']) ∧ ∀ j, Script.setEnd text i = .ok j → i + 2 < j) ∧
    (['[', '^', '\n'] <+: text.drop i →
      Script.setEnd text i = .error (.fault .setNotClosed) ∧
        convertSet text i = ((text.drop i).findIdx? (· = ']')).map fun k =>
          (i + k + 1, doubleBackslashes (text.extract i (i + k + 1)))) := by
  refine ⟨?_, fun ⟨rest, hrest⟩ => readers_of_caret_closing hrest.symm, fun ⟨rest, hrest⟩ => readers_of_caret_newline hrest.symm⟩
  by_cases hclosing : ['[', '^', ']'] <+: text.drop i
  · refine iff_of_false (fun hagree => ?_) fun hother => hother.1 hclosing
    obtain ⟨rest, hrest⟩ := hclosing
    obtain ⟨hset, hend⟩ := readers_of_caret_closing hrest.symm
    rw [readersAgree_iff, hset] at hagree
    obtain ⟨k, hk, hsame⟩ := Option.map_eq_some_iff.1 hagree.symm
    have hlater := hend (i + k) (by rw [Script.setEnd, hk])
    have hplace := (Prod.mk.inj hsame).1
    omega
  · by_cases hnewline : ['[', '^', '\n'] <+: text.drop i
    · have hopen : ReadersAgree text i ↔ ']' ∉ text.drop i := by
        obtain ⟨rest, hrest⟩ := hnewline
        rw [readersAgree_iff, (readers_of_caret_newline hrest.symm).2, ← hrest]
        simp [closingBracket?, List.findIdx?_eq_none_iff, List.forall_mem_ne']
      rw [hopen]
      exact ⟨fun hmem => ⟨hclosing, fun hother => hmem hother.2⟩, fun hother hmem => hother.2 ⟨hnewline, hmem⟩⟩
    · obtain ⟨hlt, hget⟩ := List.getElem?_eq_some_iff.1 h
      have hdrop : text.drop i = '[' :: text.drop (i + 1) := by rw [List.drop_eq_getElem_cons hlt, hget]
      exact iff_of_true (readersAgree_of_drop hdrop hclosing hnewline) ⟨hclosing, fun hother => hnewline hother.1⟩

def sampleSet : Text := ['a', '[', ']', '\\', 'n', '\\', '.', ']']

theorem sampleSet_readers_agree :
    sampleSet[1]? = some '[' ∧ ReadersAgree sampleSet 1 ∧ Script.setEnd sampleSet 1 = .ok 7 ∧
      convertSet sampleSet 1 = some (8, ['[', ']', '\\', 'n', '\\', '\\', '.', ']']) := by
  have hopening : sampleSet[1]? = some '[' := rfl
  have hagree : ReadersAgree sampleSet 1 := (set_readers_agree_iff hopening).1.2 (by decide)
  exact ⟨hopening, hagree, rfl, hagree.1 7 rfl⟩

theorem caret_readers_differ :
    Script.setEnd ['[', '^', ']', 'a', ']'] 0 = .ok 4 ∧
      convertSet ['[', '^', ']', 'a', ']'] 0 = some (3, ['[', '^', ']']) ∧
      ¬ReadersAgree ['[', '^', ']', 'a', ']'] 0 ∧
      Script.setEnd ['[', '^', '\n', ']'] 0 = .error (.fault .setNotClosed) ∧
      convertSet ['[', '^', '\n', ']'] 0 = some (4, ['[', '^', '\n', ']']) ∧
      ¬ReadersAgree ['[', '^', '\n', ']'] 0 := by
  refine ⟨rfl, rfl, fun hagree => ?_, rfl, rfl, fun hagree => ?_⟩
  · exact absurd (hagree.1 4 rfl) (by decide)
  · exact absurd (hagree.2 rfl) (by decide)

end StreamEditor.Dialect
