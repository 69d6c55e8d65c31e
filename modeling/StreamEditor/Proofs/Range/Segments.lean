import Mathlib.Tactic.ByContra
import Mathlib.Tactic.Lemma

/-! Segments of a sequence of positions, given where a segment may start and where it may end: each starts
at the first place after the one before it, and ends at the first place strictly after its own start. -/

namespace StreamEditor.Segments

def FirstFrom (P : Nat → Prop) (n k : Nat) : Prop := n ≤ k ∧ P k ∧ ∀ j, n ≤ j → j < k → ¬P j

lemma exists_firstFrom {P : Nat → Prop} {n k : Nat} (hn : n ≤ k) (hk : P k) : ∃ j ≤ k, FirstFrom P n j := by
  induction k using Nat.strongRecOn with
  | ind k ih =>
    by_cases h : ∃ j, n ≤ j ∧ j < k ∧ P j
    · obtain ⟨j, hj, hlt, hp⟩ := h
      obtain ⟨l, hl, hf⟩ := ih j hlt hj hp
      exact ⟨l, by omega, hf⟩
    · exact ⟨k, Nat.le_refl k, hn, hk, fun j hj hlt hp => h ⟨j, hj, hlt, hp⟩⟩

inductive Starts (A B : Nat → Prop) : Nat → Prop
  | first {s : Nat} : FirstFrom A 0 s → Starts A B s
  | next {s e s' : Nat} : Starts A B s → FirstFrom B (s + 1) e → FirstFrom A (e + 1) s' → Starts A B s'

def Covers (B : Nat → Prop) (s k : Nat) : Prop := s ≤ k ∧ ∀ j, s < j → j < k → ¬B j

section

variable (A B : Nat → Prop)

def Selected (k : Nat) : Prop := ∃ s, Starts A B s ∧ Covers B s k

def Ends (k : Nat) : Prop := ∃ s, Starts A B s ∧ FirstFrom B (s + 1) k

def Open (k : Nat) : Prop := ∃ s, Starts A B s ∧ s < k ∧ Covers B s k

end

section

variable {A B : Nat → Prop} {k : Nat}

lemma Starts.holds (h : Starts A B k) : A k := by
  cases h with
  | first h => exact h.2.1
  | next _ _ h => exact h.2.1

lemma not_open_of_starts (h : Starts A B k) : ¬Open A B k := by
  induction k using Nat.strongRecOn with
  | ind k ih =>
    rintro ⟨s', hs', hlt, -, hcover⟩
    cases h with
    | first h => exact h.2.2 s' (Nat.zero_le s') hlt hs'.holds
    | @next s e _ hs he hk =>
      rcases Nat.lt_trichotomy s' e with hse | rfl | hse
      · exact hcover e hse hk.1 he.2.1
      · -- a segment can not start where the one before it ends
        refine ih s' hlt hs' ⟨s, hs, he.1, Nat.le_of_lt he.1, fun j hj hlt => he.2.2 j hj hlt⟩
      · exact hk.2.2 s' hse hlt hs'.holds

lemma exists_last_start (h : ∃ s, Starts A B s ∧ s < k) :
    ∃ s, Starts A B s ∧ s < k ∧ ∀ s', Starts A B s' → s' < k → s' ≤ s := by
  induction k with
  | zero =>
    obtain ⟨s, -, hs⟩ := h
    omega
  | succ k ih =>
    by_cases hk : Starts A B k
    · exact ⟨k, hk, Nat.lt_succ_self k, fun s' _ hs' => Nat.le_of_lt_succ hs'⟩
    · have hlt {s : Nat} (hs : Starts A B s) (hle : s < k + 1) : s < k := by
        rcases Nat.lt_succ_iff_lt_or_eq.1 hle with hlt | rfl
        · exact hlt
        · exact absurd hs hk
      obtain ⟨s, hs, hle⟩ := h
      obtain ⟨s, hs, hsk, hmax⟩ := ih ⟨s, hs, hlt hs hle⟩
      exact ⟨s, hs, by omega, fun s' hs' hle => hmax s' hs' (hlt hs' hle)⟩

lemma starts_of_not_open (ha : A k) (ho : ¬Open A B k) : Starts A B k := by
  by_cases h : ∃ s, Starts A B s ∧ s < k
  · obtain ⟨s, hs, hlt, hmax⟩ := exists_last_start h
    obtain ⟨j, hj, hjk, hb⟩ : ∃ j, s < j ∧ j < k ∧ B j := by
      by_contra hn
      exact ho ⟨s, hs, hlt, Nat.le_of_lt hlt, fun j hj hjk hb => hn ⟨j, hj, hjk, hb⟩⟩
    obtain ⟨e, hej, he⟩ := exists_firstFrom (P := B) hj hb
    refine .next hs he ⟨by omega, ha, fun l hl hlk hal => ?_⟩
    obtain ⟨s', hs', hf⟩ := exists_firstFrom (P := A) hl hal
    have := hmax s' (.next hs he hf) (by omega)
    have := hf.1
    have := he.1
    omega
  · refine .first ⟨Nat.zero_le k, ha, fun j _ hj haj => ?_⟩
    obtain ⟨s, hs, hf⟩ := exists_firstFrom (P := A) (Nat.zero_le j) haj
    exact h ⟨s, .first hf, by omega⟩

lemma starts_iff : Starts A B k ↔ ¬Open A B k ∧ A k :=
  ⟨fun h => ⟨not_open_of_starts h, h.holds⟩, fun h => starts_of_not_open h.2 h.1⟩

lemma not_open_zero : ¬Open A B 0 := by
  rintro ⟨s, -, hs, -⟩
  exact Nat.not_lt_zero s hs

lemma selected_iff : Selected A B k ↔ Open A B k ∨ A k := by
  constructor
  · rintro ⟨s, hs, hc⟩
    rcases Nat.lt_or_eq_of_le hc.1 with hlt | rfl
    · exact .inl ⟨s, hs, hlt, hc⟩
    · exact .inr hs.holds
  · intro h
    by_cases ho : Open A B k
    · obtain ⟨s, hs, -, hc⟩ := ho
      exact ⟨s, hs, hc⟩
    · have ha : A k := h.resolve_left ho
      exact ⟨k, starts_of_not_open ha ho, Nat.le_refl k, fun j hj hjk => by omega⟩

lemma ends_iff : Ends A B k ↔ Open A B k ∧ B k := by
  constructor
  · rintro ⟨s, hs, he⟩
    exact ⟨⟨s, hs, he.1, Nat.le_of_lt he.1, fun j hj hlt => he.2.2 j hj hlt⟩, he.2.1⟩
  · rintro ⟨⟨s, hs, hlt, hc⟩, hb⟩
    exact ⟨s, hs, hlt, hb, fun j hj hjk => hc.2 j hj hjk⟩

lemma open_succ : Open A B (k + 1) ↔ Open A B k ∧ ¬B k ∨ ¬Open A B k ∧ A k := by
  constructor
  · rintro ⟨s, hs, hlt, hc⟩
    rcases Nat.lt_succ_iff_lt_or_eq.1 hlt with hsk | rfl
    · refine .inl ⟨⟨s, hs, hsk, Nat.le_of_lt hsk, fun j hj hjk => hc.2 j hj (by omega)⟩, ?_⟩
      exact hc.2 k hsk (Nat.lt_succ_self k)
    · exact .inr (starts_iff.1 hs)
  · rintro (⟨⟨s, hs, hlt, hc⟩, hb⟩ | h)
    · refine ⟨s, hs, by omega, by omega, fun j hj hjk => ?_⟩
      rcases Nat.lt_succ_iff_lt_or_eq.1 hjk with hjk | rfl
      · exact hc.2 j hj hjk
      · exact hb
    · exact ⟨k, starts_iff.2 h, Nat.lt_succ_self k, Nat.le_succ k, fun j hj hjk => by omega⟩

lemma open_congr {A' B' : Nat → Prop} (ha : ∀ j < k, A j ↔ A' j) (hb : ∀ j < k, B j ↔ B' j) :
    Open A B k ↔ Open A' B' k := by
  induction k with
  | zero => exact iff_of_false not_open_zero not_open_zero
  | succ k ih =>
    have ho := ih (fun j hj => ha j (by omega)) fun j hj => hb j (by omega)
    rw [open_succ, open_succ, ho, ha k (Nat.lt_succ_self k), hb k (Nat.lt_succ_self k)]

end

end StreamEditor.Segments
