import Mathlib.Tactic.Lemma
import StreamEditor.Regex.Template

namespace StreamEditor

namespace Text

def replaceAll (old new : Text) (t : Text) : Text :=
  match t with
  | [] => []
  | c :: cs =>
    if old <+: c :: cs then new ++ replaceAll old new (cs.drop (old.length - 1))
    else c :: replaceAll old new cs
termination_by t.length
decreasing_by all_goals simp only [List.length_drop, List.length_cons]; omega

def firstIndex? (w : Text) : Text → Option Nat
  | [] => none
  | c :: cs => if w <+: c :: cs then some 0 else (firstIndex? w cs).map (· + 1)

variable {w : Text}

lemma firstIndex?_isSome_iff (hw : w ≠ []) (t : Text) : (firstIndex? w t).isSome = true ↔ w <:+: t := by
  induction t with
  | nil => simp [firstIndex?, hw]
  | cons c cs ih =>
    rw [firstIndex?, List.infix_cons_iff]
    by_cases h : w <+: c :: cs
    · simp [h]
    · simpa [h] using ih

lemma firstIndex?_add_length_le {t : Text} {i : Nat} (h : firstIndex? w t = some i) :
    i + w.length ≤ t.length := by
  induction t generalizing i with
  | nil => simp [firstIndex?] at h
  | cons c cs ih =>
    rw [firstIndex?] at h
    split at h
    · rename_i hp
      cases h
      simpa using hp.length_le
    · obtain ⟨j, hj, rfl⟩ := Option.map_eq_some_iff.1 h
      have := ih hj
      simp only [List.length_cons]
      omega

lemma replaceAll_of_firstIndex?_none (v : Text) {t : Text} (h : firstIndex? w t = none) :
    replaceAll w v t = t := by
  induction t with
  | nil => rw [replaceAll]
  | cons c cs ih =>
    rw [firstIndex?] at h
    split at h
    · simp at h
    · rename_i hp
      rw [replaceAll, if_neg hp, ih (by simpa using h)]

lemma replaceAll_of_firstIndex?_some (hw : w ≠ []) (v : Text) {t : Text} {i : Nat}
    (h : firstIndex? w t = some i) :
    replaceAll w v t = t.take i ++ v ++ replaceAll w v (t.drop (i + w.length)) := by
  induction t generalizing i with
  | nil => simp [firstIndex?] at h
  | cons c cs ih =>
    rw [firstIndex?] at h
    split at h
    · rename_i hp
      cases h
      rw [replaceAll, if_pos hp]
      obtain ⟨d, u, rfl⟩ := List.exists_cons_of_ne_nil hw
      simp
    · rename_i hp
      obtain ⟨j, hj, rfl⟩ := Option.map_eq_some_iff.1 h
      rw [replaceAll, if_neg hp, ih hj]
      simp [Nat.add_right_comm j 1]

end Text

namespace Regex

def literal (w : Text) : Regex := ofItems (w.map .char)

lemma run_ofItems_cons {α : Type} (ignoreCase : Bool) (r : Regex) (rs : List Regex) (s : Spot)
    (k : Spot → Option α) :
    (ofItems (r :: rs)).run ignoreCase s k =
      r.run ignoreCase s fun t => (ofItems rs).run ignoreCase t k := by
  cases rs with
  | nil => simp only [ofItems, run]
  | cons r' rs => simp only [ofItems, run]

lemma run_literal {α : Type} (w : Text) (s : Spot) (k : Spot → Option α) :
    (literal w).run false s k =
      if w <+: s.rest then k ⟨s.pos + w.length, s.rest.drop w.length, s.captures⟩ else none := by
  induction w generalizing s with
  | nil => simp [literal, ofItems, run]
  | cons c w ih =>
    rw [literal, List.map_cons, run_ofItems_cons]
    change run false (char c) s (fun t => (literal w).run false t k) = _
    obtain ⟨pos, rest, captures⟩ := s
    cases rest with
    | nil => simp [run, one]
    | cons d rest =>
      by_cases hd : d = c
      · simp [run, one, hd, ih, Nat.add_right_comm pos 1, Nat.add_assoc]
      · simp [run, one, hd, Ne.symm hd]

variable {w : Text}

lemma matchAt_literal (hw : w ≠ []) (s : Spot) (advance : Bool) :
    matchAt false (literal w) s advance =
      if w <+: s.rest then some ⟨s.pos + w.length, s.rest.drop w.length, s.captures⟩ else none := by
  simp [matchAt, run_literal, hw]

lemma findFrom_literal (hw : w ≠ []) (t : Text) (pos : Nat) (advance : Bool) :
    findFrom false (literal w) t pos advance =
      (Text.firstIndex? w t).map fun i => ⟨pos + i, pos + i + w.length, t.drop i, []⟩ := by
  induction t generalizing pos advance with
  | nil => simp [findFrom, matchAt_literal hw, Text.firstIndex?, hw]
  | cons c cs ih =>
    rw [findFrom, matchAt_literal hw, Text.firstIndex?]
    by_cases h : w <+: c :: cs
    · simp [h]
    · simp [h, ih, Function.comp_def, Nat.add_assoc, Nat.add_comm 1]

lemma mem_occurrencesFrom_literal (hw : w ≠ []) {fuel : Nat} {limit : Option Nat} {t : Text} {pos : Nat}
    {advance : Bool} {o : Occurrence}
    (h : o ∈ occurrencesFrom false (literal w) fuel limit t pos advance) : o.isEmpty = false := by
  induction fuel generalizing limit t pos advance with
  | zero => simp [occurrencesFrom] at h
  | succ fuel ih =>
    rw [occurrencesFrom, findFrom_literal hw] at h
    cases hi : Text.firstIndex? w t with
    | none => simp [hi] at h
    | some i =>
      simp only [hi, Option.map_some] at h
      split at h
      · simp at h
      · rcases List.mem_cons.1 h with rfl | h
        · simp [Occurrence.isEmpty, hw]
        · exact ih h

lemma replaceable_eq_self {os : List Occurrence} (h : ∀ o ∈ os, o.isEmpty = false)
    (previous : Option Nat) : replaceable previous os = os := by
  induction os generalizing previous with
  | nil => rfl
  | cons o os ih =>
    obtain ⟨ho, hos⟩ := List.forall_mem_cons.1 h
    simp [replaceable, ho, ih hos]

lemma splice_occurrencesFrom_literal (hw : w ≠ []) (v : Text) {fuel : Nat} {t : Text}
    (hf : t.length < fuel) (pos : Nat) (advance : Bool) :
    splice t pos ((occurrencesFrom false (literal w) fuel none t pos advance).map (·, v)) =
      Text.replaceAll w v t := by
  induction fuel generalizing t pos advance with
  | zero => omega
  | succ fuel ih =>
    rw [occurrencesFrom, findFrom_literal hw]
    cases hi : Text.firstIndex? w t with
    | none => simp [splice, Text.replaceAll_of_firstIndex?_none v hi]
    | some i =>
      have hl := Text.firstIndex?_add_length_le hi
      have hp : 0 < w.length := List.length_pos_iff.2 hw
      have hd : (t.drop (i + w.length)).length < fuel := by
        rw [List.length_drop]
        omega
      have hr := ih hd (pos + i + w.length)
        (Occurrence.isEmpty ⟨pos + i, pos + i + w.length, t.drop i, []⟩)
      rw [Text.replaceAll_of_firstIndex?_some hw v hi, ← hr]
      simp [splice, Nat.add_assoc]

lemma occurrences_literal_ne_nil (hw : w ≠ []) (t : Text) :
    occurrences false (literal w) none t ≠ [] ↔ w <:+: t := by
  rw [← Text.firstIndex?_isSome_iff hw, occurrences, occurrencesFrom, findFrom_literal hw]
  cases Text.firstIndex? w t <;> simp

end Regex

end StreamEditor
