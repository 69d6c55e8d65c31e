import Mathlib.Tactic.ByContra
import Mathlib.Tactic.Lemma
import Mathlib.Tactic.SplitIfs
import StreamEditor.Text.Basic

namespace StreamEditor.Outline

inductive Balanced : List Text → Prop
  | nil : Balanced []
  | cons {w : Text} {ws : List Text} : w ≠ ['('] → w ≠ [')'] → Balanced ws → Balanced (w :: ws)
  | group {us vs : List Text} : Balanced us → Balanced vs → Balanced (['('] :: (us ++ [')'] :: vs))

def Encloses (ws body : List Text) : Prop := Balanced body ∧ ∃ rest, ws = body ++ [')'] :: rest

/-- A parenthesis is lost if it has no partner, or a bar stands between the two. -/
def Lost (ws : List Text) : Prop := (∀ body, ¬Encloses ws body) ∨ ∃ body, Encloses ws body ∧ ['|'] ∈ body

def closes (depth : Nat) : List Text → Bool
  | [] => false
  | w :: ws =>
    if w = [')'] then depth = 0 || closes (depth - 1) ws
    else if w = ['('] then closes (depth + 1) ws
    else if w = ['|'] then false
    else closes depth ws

section

variable {us vs ws body : List Text}

lemma Balanced.eq_of_append {us' vs' : List Text} (hu : Balanced us) (hu' : Balanced us')
    (h : us ++ [')'] :: vs = us' ++ [')'] :: vs') : us = us' ∧ vs = vs' := by
  induction hu generalizing us' vs vs' with
  | nil =>
    cases hu' with
    | nil => exact ⟨rfl, (List.cons.inj h).2⟩
    | cons _ hc => exact absurd (List.cons.inj h).1.symm hc
    | group => cases (List.cons.inj h).1
  | cons ho hc _ ih =>
    cases hu' with
    | nil => exact absurd (List.cons.inj h).1 hc
    | cons _ _ hu' =>
      obtain ⟨rfl, htail⟩ := List.cons.inj h
      obtain ⟨rfl, rfl⟩ := ih hu' htail
      exact ⟨rfl, rfl⟩
    | group => exact absurd (List.cons.inj h).1 ho
  | group _ _ ihbody ihrest =>
    cases hu' with
    | nil => cases (List.cons.inj h).1
    | cons ho => exact absurd (List.cons.inj h).1.symm ho
    | group hbody hrest =>
      simp only [List.cons_append, List.append_assoc, List.cons.injEq, true_and] at h
      obtain ⟨rfl, htail⟩ := ihbody hbody h
      obtain ⟨rfl, rfl⟩ := ihrest hrest htail
      exact ⟨rfl, rfl⟩

lemma Encloses.unique {body' : List Text} (h : Encloses ws body) (h' : Encloses ws body') : body = body' := by
  obtain ⟨hb, rest, rfl⟩ := h
  obtain ⟨hb', rest', heq⟩ := h'
  exact (hb.eq_of_append hb' heq).1

lemma not_lost_iff : ¬Lost ws ↔ ∃ body, Encloses ws body ∧ ['|'] ∉ body := by
  constructor
  · intro h
    rw [Lost, not_or] at h
    obtain ⟨hex, hall⟩ := h
    by_contra hnone
    apply hex
    intro body hbody
    apply hall
    refine ⟨body, hbody, ?_⟩
    by_contra hbar
    exact hnone ⟨body, hbody, hbar⟩
  · rintro ⟨body, hbody, hbar⟩ (hnone | ⟨body', hbody', hbar'⟩)
    · exact hnone body hbody
    · rw [hbody.unique hbody'] at hbar
      exact hbar hbar'

lemma closes_append (h : Balanced us) (hbar : ['|'] ∉ us) (depth : Nat) (ws : List Text) :
    closes depth (us ++ ws) = closes depth ws := by
  induction h generalizing depth ws with
  | nil => rfl
  | @cons w us ho hc _ ih =>
    rw [List.mem_cons, not_or] at hbar
    rw [List.cons_append, closes, if_neg hc, if_neg ho, if_neg (Ne.symm hbar.1), ih hbar.2]
  | @group us vs _ _ ihbody ihrest =>
    simp only [List.mem_cons, List.mem_append, not_or] at hbar
    rw [List.cons_append, List.append_assoc, List.cons_append, closes, if_neg (by decide), if_pos rfl,
      ihbody hbar.2.1, closes, if_pos rfl, ihrest hbar.2.2.2]
    simp

lemma of_closes {depth : Nat} (h : closes depth ws = true) :
    ∃ body rest, Balanced body ∧ ['|'] ∉ body ∧ ws = body ++ [')'] :: rest ∧
      (depth = 0 ∨ closes (depth - 1) rest = true) := by
  induction hn : ws.length using Nat.strongRecOn generalizing ws depth with
  | _ n ih =>
    subst hn
    cases ws with
    | nil => cases h
    | cons w ws =>
      rw [closes] at h
      split_ifs at h with hclosing hopening hbar
      · subst hclosing
        exact ⟨[], ws, .nil, by simp, rfl, by simpa using h⟩
      · subst hopening
        obtain ⟨us, vs, hus, husbar, rfl, hvs⟩ := ih _ (by simp) h rfl
        obtain ⟨body, rest, hbody, hbodybar, rfl, hrest⟩ := ih _ (by simp; omega) (hvs.resolve_left (by omega)) rfl
        refine ⟨['('] :: (us ++ [')'] :: body), rest, .group hus hbody, ?_, ?_, hrest⟩
        · simp [husbar, hbodybar]
        · simp
      · obtain ⟨body, rest, hbody, hbodybar, rfl, hrest⟩ := ih _ (by simp) h rfl
        refine ⟨w :: body, rest, .cons hopening hclosing hbody, ?_, rfl, hrest⟩
        rw [List.mem_cons, not_or]
        exact ⟨Ne.symm hbar, hbodybar⟩

lemma closes_zero_iff : closes 0 ws = true ↔ ¬Lost ws := by
  rw [not_lost_iff]
  constructor
  · intro h
    obtain ⟨body, rest, hbody, hbar, heq, -⟩ := of_closes h
    exact ⟨body, ⟨hbody, rest, heq⟩, hbar⟩
  · rintro ⟨body, ⟨hbody, rest, rfl⟩, hbar⟩
    rw [closes_append hbody hbar, closes, if_pos rfl]
    rfl

instance (ws : List Text) : Decidable (Lost ws) :=
  decidable_of_iff (closes 0 ws = false) (by rw [← not_iff_not, ← closes_zero_iff, Bool.not_eq_false])

lemma not_lost_closing (ws : List Text) : ¬Lost ([')'] :: ws) := closes_zero_iff.1 rfl

lemma lost_append_iff (h : Balanced us) (hbar : ['|'] ∉ us) : Lost (us ++ ws) ↔ Lost ws := by
  rw [← not_iff_not, ← closes_zero_iff, ← closes_zero_iff, closes_append h hbar]

def kept : List Text → Text
  | [] => []
  | w :: ws => (if w = ['('] ∧ Lost ws then [] else w) ++ kept ws

lemma kept_cons_of_ne {w : Text} (hw : w ≠ ['(']) (ws : List Text) : kept (w :: ws) = w ++ kept ws := by
  rw [kept, if_neg fun h => hw h.1]

lemma kept_lost (h : Lost ws) : kept (['('] :: ws) = kept ws := by
  rw [kept, if_pos ⟨rfl, h⟩, List.nil_append]

lemma kept_append (h : Balanced us) (hbar : ['|'] ∉ us) (ws : List Text) :
    kept (us ++ ws) = us.flatten ++ kept ws := by
  induction h generalizing ws with
  | nil => rfl
  | cons ho _ _ ih =>
    rw [List.mem_cons, not_or] at hbar
    rw [List.cons_append, kept_cons_of_ne ho, ih hbar.2, List.flatten_cons, List.append_assoc]
  | @group us vs hu _ ihbody ihrest =>
    simp only [List.mem_cons, List.mem_append, not_or] at hbar
    have hlost : ¬Lost (us ++ [')'] :: (vs ++ ws)) := by
      rw [lost_append_iff hu hbar.2.1]
      exact not_lost_closing _
    rw [List.cons_append, List.append_assoc, List.cons_append, kept, if_neg fun h => hlost h.2, ihbody hbar.2.1,
      kept_cons_of_ne (by decide), ihrest hbar.2.2.2]
    simp

lemma length_kept_le (ws : List Text) : (kept ws).length ≤ ws.flatten.length := by
  induction ws with
  | nil => exact Nat.le_refl _
  | cons w ws ih =>
    rw [kept, List.flatten_cons, List.length_append, List.length_append]
    split
    · exact Nat.add_le_add (Nat.zero_le _) ih
    · exact Nat.add_le_add_left ih _

lemma kept_cons_eq_flatten_iff {w : Text} :
    kept (w :: ws) = (w :: ws).flatten ↔ (w = ['('] → ¬Lost ws) ∧ kept ws = ws.flatten := by
  rw [kept, List.flatten_cons]
  by_cases h : w = ['('] ∧ Lost ws
  · rw [if_pos h]
    constructor
    · intro heq
      have hlength := congrArg List.length heq
      have hle := length_kept_le ws
      rw [h.1, List.length_append, List.length_append, List.length_nil, List.length_singleton] at hlength
      omega
    · rintro ⟨hkept, -⟩
      exact absurd h.2 (hkept h.1)
  · rw [if_neg h, List.append_cancel_left_eq, and_iff_right fun hw hlost => h ⟨hw, hlost⟩]

lemma kept_eq_flatten_iff : kept ws = ws.flatten ↔ ∀ us vs, ws = us ++ ['('] :: vs → ¬Lost vs := by
  induction ws with
  | nil => simp [kept]
  | cons w ws ih =>
    rw [kept_cons_eq_flatten_iff, ih]
    constructor
    · rintro ⟨hfirst, hrest⟩ us vs heq
      cases us with
      | nil =>
        obtain ⟨rfl, rfl⟩ := List.cons.inj heq
        exact hfirst rfl
      | cons u us => exact hrest us vs (List.cons.inj heq).2
    · intro h
      refine ⟨?_, fun us vs heq => ?_⟩
      · rintro rfl
        exact h [] ws rfl
      · exact h (w :: us) vs (congrArg _ heq)

lemma Balanced.exists_encloses (h : Balanced ws) (heq : ws = us ++ ['('] :: vs) : ∃ body, Encloses vs body := by
  induction h generalizing us vs with
  | nil => simp at heq
  | cons ho _ _ ih =>
    cases us with
    | nil => exact absurd (List.cons.inj heq).1 ho
    | cons u us => exact ih (List.cons.inj heq).2
  | @group ws ws' hbody _ ihbody ihrest =>
    cases us with
    | nil => exact ⟨ws, hbody, ws', (List.cons.inj heq).2.symm⟩
    | cons u us =>
      rcases List.append_eq_append_iff.1 (List.cons.inj heq).2 with ⟨xs, rfl, hxs⟩ | ⟨xs, rfl, hxs⟩
      · cases xs with
        | nil => cases (List.cons.inj hxs).1
        | cons x xs => exact ihrest (List.cons.inj hxs).2
      · cases xs with
        | nil => cases (List.cons.inj hxs).1
        | cons x xs =>
          obtain ⟨rfl, rfl⟩ := List.cons.inj hxs
          obtain ⟨body, hbalanced, rest, rfl⟩ := ihbody rfl
          exact ⟨body, hbalanced, rest ++ [')'] :: ws', by simp⟩

end

end StreamEditor.Outline
