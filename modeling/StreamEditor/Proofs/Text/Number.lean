import Mathlib.Tactic.Lemma
import StreamEditor.Text.Basic

namespace StreamEditor.Text

lemma of_contains {l : Text} {p : Char → Bool} (hl : l.all p = true) {c : Char}
    (hc : l.contains c = true) : p c = true :=
  List.all_eq_true.1 hl c (by simpa using hc)

lemma contains_eq_false {l : Text} {p : Char → Bool} (hl : l.all p = true) {c : Char}
    (hc : p c = false) : l.contains c = false := by
  rw [← Bool.not_eq_true]
  intro h
  simp [of_contains hl h] at hc

lemma isAsciiDigit_eq_isDigit (c : Char) : isAsciiDigit c = c.isDigit := by
  simp [isAsciiDigit, Char.isDigit, Char.le_def]

lemma isAsciiDigit_of_mem_ofNumber {n : Nat} {c : Char} (h : c ∈ ofNumber n) :
    isAsciiDigit c = true := by
  rw [isAsciiDigit_eq_isDigit]
  exact Nat.isDigit_of_mem_toDigits (by decide) (by decide) h

lemma isDigit_of_isAsciiDigit {c : Char} (h : isAsciiDigit c = true) : isDigit c = true := by
  simp only [isAsciiDigit, Bool.and_eq_true, decide_eq_true_eq] at h
  have hr : 0x30 ≤ c.toNat ∧ c.toNat ≤ 0x39 := h
  simp [isDigit, isDecimal, inRanges, decimalRanges, hr.1, hr.2]

lemma ofNumber_ne_nil (n : Nat) : ofNumber n ≠ [] := Nat.toDigits_ne_nil

lemma ofNumber_digit {n : Nat} (h : n < 10) : ∃ d, ofNumber n = [d] ∧ isAsciiDigit d = true := by
  have hn : ofNumber n = [n.digitChar] := Nat.toDigits_of_lt_base h
  exact ⟨_, hn, isAsciiDigit_of_mem_ofNumber (by rw [hn]; exact List.mem_singleton_self _)⟩

lemma toNumber_ofNumber (n : Nat) : toNumber (ofNumber n) = n :=
  Nat.ofDigitChars_ten_toDigits

lemma toNumber_le_append (ds e : Text) : toNumber ds ≤ toNumber (ds ++ e) := by
  have hfold (n : Nat) (e : Text) : n ≤ e.foldl (fun n d => 10 * n + digitValue d) n := by
    induction e generalizing n with
    | nil => exact Nat.le_refl n
    | cons d e ih => exact Nat.le_trans (by omega) (ih (10 * n + digitValue d))
  rw [toNumber, toNumber, List.foldl_append]
  exact hfold _ e

lemma digitValue_eq_zero {d : Char} (hd : isAsciiDigit d = true) : digitValue d = 0 ↔ d = '0' := by
  have hle : '0'.toNat ≤ d.toNat := by
    rw [isAsciiDigit, Bool.and_eq_true, decide_eq_true_iff] at hd
    exact hd.1
  rw [digitValue, Nat.sub_eq_zero_iff_le]
  constructor
  · intro h
    exact Char.toNat_inj.1 (Nat.le_antisymm h hle)
  · rintro rfl
    exact Nat.le_refl _

lemma toNumber_eq_zero {ds : Text} (hds : ∀ d ∈ ds, isAsciiDigit d = true) :
    toNumber ds = 0 ↔ ∀ d ∈ ds, d = '0' := by
  have hfold (n : Nat) (ds : Text) :
      ds.foldl (fun n d => 10 * n + digitValue d) n = 0 ↔ n = 0 ∧ ∀ d ∈ ds, digitValue d = 0 := by
    induction ds generalizing n with
    | nil => simp
    | cons d ds ih =>
      rw [List.foldl_cons, ih, List.forall_mem_cons, ← and_assoc]
      exact and_congr_left' (by omega)
  rw [toNumber, hfold, and_iff_right rfl]
  exact forall₂_congr fun d hd => digitValue_eq_zero (hds d hd)

end StreamEditor.Text
