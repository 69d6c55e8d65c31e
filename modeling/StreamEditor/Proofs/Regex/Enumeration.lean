import Mathlib.Data.List.Nodup
import StreamEditor.Proofs.Regex.Progress

namespace StreamEditor.Regex

/-- The occurrences in a text that has `pos` characters before it. At every place the preferred match is taken, and
where there is none one character is passed over. An empty match may follow a match that holds text, but after an
empty one the next may not be empty in the same place. -/
inductive Enumerates (ignoreCase : Bool) (r : Regex) : Text → Nat → Bool → List Occurrence → Prop
  | done {pos : Nat} {advance : Bool} : matchAt ignoreCase r ⟨pos, [], []⟩ advance = none →
      Enumerates ignoreCase r [] pos advance []
  | skip {c : Char} {cs : Text} {pos : Nat} {advance : Bool} {os : List Occurrence} :
      matchAt ignoreCase r ⟨pos, c :: cs, []⟩ advance = none → Enumerates ignoreCase r cs (pos + 1) false os →
      Enumerates ignoreCase r (c :: cs) pos advance os
  | take {rest : Text} {pos : Nat} {advance : Bool} {t : Spot} {os : List Occurrence} :
      matchAt ignoreCase r ⟨pos, rest, []⟩ advance = some t → Enumerates ignoreCase r t.rest t.pos (pos = t.pos) os →
      Enumerates ignoreCase r rest pos advance (⟨pos, t.pos, rest, t.captures⟩ :: os)

section

variable {ignoreCase : Bool} {r : Regex} {rest : Text} {pos : Nat} {advance : Bool} {os : List Occurrence}

lemma Enumerates.unique {os' : List Occurrence} (h : Enumerates ignoreCase r rest pos advance os)
    (h' : Enumerates ignoreCase r rest pos advance os') : os' = os := by
  induction h generalizing os' with
  | done hm =>
    cases h' with
    | done _ => rfl
    | take hm' _ => cases hm.symm.trans hm'
  | skip hm _ ih =>
    cases h' with
    | skip _ h' => exact ih h'
    | take hm' _ => cases hm.symm.trans hm'
  | take hm _ ih =>
    cases h' with
    | done hm' | skip hm' _ => cases hm.symm.trans hm'
    | take hm' h' =>
      cases hm.symm.trans hm'
      rw [ih h']

lemma Enumerates.bounds (h : Enumerates ignoreCase r rest pos advance os) :
    ∀ o ∈ os, pos ≤ o.start ∧ o.start ≤ o.stop ∧ (advance = true → pos < o.stop) := by
  induction h with
  | done _ => simp
  | skip _ _ ih =>
    intro o ho
    obtain ⟨hstart, hstop, -⟩ := ih o ho
    exact ⟨by omega, hstop, fun _ => by omega⟩
  | take hm _ ih =>
    obtain ⟨hreach, hne⟩ := of_matchAt (Spot.proper_nil _ _) hm
    have hle := hreach.pos_le
    refine List.forall_mem_cons.2 ⟨⟨Nat.le_refl _, hle, fun ha => ?_⟩, fun o ho => ?_⟩
    · exact Nat.lt_of_le_of_ne hle (hne ha).symm
    · obtain ⟨hstart, hstop, -⟩ := ih o ho
      refine ⟨Nat.le_trans hle hstart, hstop, fun ha => ?_⟩
      have hlt := Nat.lt_of_le_of_ne hle (hne ha).symm
      exact Nat.lt_of_lt_of_le hlt (Nat.le_trans hstart hstop)

lemma Enumerates.nodup (h : Enumerates ignoreCase r rest pos advance os) : os.Nodup := by
  induction h with
  | done _ => exact .nil
  | skip _ _ ih => exact ih
  | @take rest pos advance t os hm hos ih =>
    have hle := (of_matchAt (Spot.proper_nil _ _) hm).1.pos_le
    refine List.nodup_cons.2 ⟨fun ho => ?_, ih⟩
    obtain ⟨hstart, -, hadvance⟩ := hos.bounds _ ho
    -- the same occurrence again would be an empty one in the place of an empty one
    have hpos : pos = t.pos := Nat.le_antisymm hle hstart
    exact Nat.lt_irrefl _ (hadvance (decide_eq_true hpos))

lemma findFrom_bounds {o : Occurrence} (h : findFrom ignoreCase r rest pos advance = some o) :
    pos ≤ o.start ∧ o.start ≤ o.stop ∧ (advance = true → pos < o.stop) ∧ o.stop - pos ≤ rest.length := by
  have hhere {rest : Text} {pos : Nat} {advance : Bool} {t : Spot}
      (hm : matchAt ignoreCase r ⟨pos, rest, []⟩ advance = some t) :
      pos ≤ t.pos ∧ (advance = true → pos < t.pos) ∧ t.pos - pos ≤ rest.length := by
    obtain ⟨hreach, hne⟩ := of_matchAt (Spot.proper_nil _ _) hm
    exact ⟨hreach.pos_le, fun ha => Nat.lt_of_le_of_ne hreach.pos_le (hne ha).symm, hreach.length_le⟩
  induction rest generalizing pos advance with
  | nil =>
    obtain ⟨t, hm, rfl⟩ := Option.map_eq_some_iff.1 h
    exact ⟨Nat.le_refl _, hhere hm⟩
  | cons c cs ih =>
    rw [findFrom] at h
    split at h
    · rename_i t hm
      cases h
      exact ⟨Nat.le_refl _, hhere hm⟩
    · obtain ⟨hstart, hstop, -, hlength⟩ := ih h
      exact ⟨by omega, hstop, fun _ => by omega, by simp only [List.length_cons]; omega⟩

lemma enumerates_nil_of_findFrom (h : findFrom ignoreCase r rest pos advance = none) :
    Enumerates ignoreCase r rest pos advance [] := by
  induction rest generalizing pos advance with
  | nil => exact .done (Option.map_eq_none_iff.1 h)
  | cons c cs ih =>
    rw [findFrom] at h
    split at h
    · cases h
    · rename_i hm
      exact .skip hm (ih h)

lemma enumerates_cons_of_findFrom {o : Occurrence} (h : findFrom ignoreCase r rest pos advance = some o)
    (hos : Enumerates ignoreCase r (rest.drop (o.stop - pos)) o.stop o.isEmpty os) :
    Enumerates ignoreCase r rest pos advance (o :: os) := by
  have hhere {rest : Text} {pos : Nat} {advance : Bool} {t : Spot}
      (hm : matchAt ignoreCase r ⟨pos, rest, []⟩ advance = some t)
      (hos : Enumerates ignoreCase r (rest.drop (t.pos - pos)) t.pos (pos = t.pos) os) :
      Enumerates ignoreCase r rest pos advance (⟨pos, t.pos, rest, t.captures⟩ :: os) := by
    have hrest := (of_matchAt (Spot.proper_nil _ _) hm).1.rest_eq
    exact .take hm (hrest ▸ hos)
  induction rest generalizing pos advance with
  | nil =>
    obtain ⟨t, hm, rfl⟩ := Option.map_eq_some_iff.1 h
    exact hhere hm hos
  | cons c cs ih =>
    rw [findFrom] at h
    split at h
    · rename_i t hm
      cases h
      exact hhere hm hos
    · rename_i hm
      obtain ⟨hstart, hstop, -, -⟩ := findFrom_bounds h
      have hpos : o.stop - pos = o.stop - (pos + 1) + 1 := by omega
      rw [hpos, List.drop_succ_cons] at hos
      exact .skip hm (ih h hos)

end

section

variable (ignoreCase : Bool) (r : Regex)

-- An occurrence takes a character, or it is empty and the next one may not be: either counts as a step, and of these
-- there are at most two for a character.
lemma enumerates_occurrencesFrom {fuel : Nat} {rest : Text} {pos : Nat} {advance : Bool}
    (hf : 2 * rest.length + (if advance then 0 else 1) < fuel) :
    Enumerates ignoreCase r rest pos advance (occurrencesFrom ignoreCase r fuel none rest pos advance) := by
  induction fuel generalizing rest pos advance with
  | zero => omega
  | succ fuel ih =>
    rw [occurrencesFrom, if_neg (by simp)]
    cases h : findFrom ignoreCase r rest pos advance with
    | none => exact enumerates_nil_of_findFrom h
    | some o =>
      refine enumerates_cons_of_findFrom h (ih ?_)
      obtain ⟨hstart, hstop, hadvance, hlength⟩ := findFrom_bounds h
      rw [List.length_drop]
      by_cases hpos : pos < o.stop
      · split <;> split at hf <;> omega
      · have hempty : o.isEmpty = true := decide_eq_true (by omega)
        have hfirst : advance = false := by simpa using mt hadvance hpos
        rw [hempty, if_pos rfl]
        rw [hfirst] at hf
        simp only [Bool.false_eq_true, if_false] at hf
        omega

lemma enumerates_occurrences (subject : Text) :
    Enumerates ignoreCase r subject 0 false (r.occurrences ignoreCase none subject) :=
  enumerates_occurrencesFrom ignoreCase r (by simp)

lemma occurrencesFrom_some (fuel n : Nat) (rest : Text) (pos : Nat) (advance : Bool) :
    occurrencesFrom ignoreCase r fuel (some n) rest pos advance =
      (occurrencesFrom ignoreCase r fuel none rest pos advance).take n := by
  induction fuel generalizing n rest pos advance with
  | zero => simp [occurrencesFrom]
  | succ fuel ih =>
    cases n with
    | zero => simp [occurrencesFrom]
    | succ n =>
      rw [occurrencesFrom, occurrencesFrom, if_neg (by simp), if_neg (by simp)]
      cases findFrom ignoreCase r rest pos advance with
      | none => rfl
      | some o =>
        dsimp only [Option.map_some, Option.map_none]
        rw [Nat.add_sub_cancel, ih, List.take_succ_cons]

end

end StreamEditor.Regex
