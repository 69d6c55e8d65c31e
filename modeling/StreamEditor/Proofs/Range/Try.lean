import StreamEditor.Proofs.Editor.Work

namespace StreamEditor

open Edit Outcome

def Address.Matches (a : Address) (m : Machine) : Prop := ∃ m', a.selects m = .ok true m'

lemma Recall.ranges_eq {m m' : Machine} (h : Recall m m') : m'.editor.ranges = m.editor.ranges := by
  cases h
  rfl

lemma WorkBy.ranges_eq {m m' : Machine} (h : Work m m') : m'.editor.ranges = m.editor.ranges := by
  cases h with
  | remember h => exact h.ranges_eq
  | display h => cases h <;> rfl
  | _ => rfl

lemma Move.count_eq {i j : Nat} (hj : j ≠ i) {m m' : Machine} (h : Move j m m') :
    m'.editor.ranges.count i = m.editor.ranges.count i := by
  rcases h with h | h
  · cases h with
    | remember h => rw [h.ranges_eq]
    | enter => exact List.count_cons_of_ne hj
    | leave => exact List.count_erase_of_ne hj.symm
  · rw [h.ranges_eq]

abbrev Machine.recalling (m : Machine) (x : Option Regexp) : Machine :=
  { m with editor := { m.editor with lastRegexp := x } }

abbrev Machine.ranging (m : Machine) (ranges : List Nat) : Machine := { m with editor := { m.editor with ranges } }

lemma selects_regexp {x : Regexp} {m : Machine} {found : Bool} (h : x.search (m.editor.pattern.getD []) = .ok found)
    (source : Text) (ignoreCase : Bool) :
    (Address.regexp source ignoreCase (some x)).selects m = .ok found (m.recalling (some x)) := by
  rw [Address.selects, bind_ok (show useRegexp (some x) m = .ok x (m.recalling (some x)) from rfl),
    bind_ok (show Edit.pattern (m.recalling (some x)) = .ok (m.editor.pattern.getD []) _ from rfl), h]
  rfl

lemma selects_cases (a : Address) (m : Machine) : ∃ x,
    (a.Matches m ∧ a.selects m = .ok true (m.recalling x)) ∨
    (¬a.Matches m ∧ (a.selects m = .ok false (m.recalling x) ∨ ∃ e, a.selects m = .error e (m.recalling x))) := by
  have hx : ∃ x, final (a.selects m) = m.recalling x := by
    refine (within_selects a).preserves (P := fun t => ∃ x, t = m.recalling x) ?_ ⟨m.editor.lastRegexp, rfl⟩
    rintro _ t' h ⟨x, rfl⟩
    cases h with
    | mk y => exact ⟨some y, rfl⟩
  obtain ⟨x, hx⟩ := hx
  refine ⟨x, ?_⟩
  cases hs : a.selects m with
  | ok found m₁ =>
    rw [hs] at hx
    obtain rfl : m₁ = m.recalling x := hx
    cases found with
    | true => exact .inl ⟨⟨_, hs⟩, rfl⟩
    | false =>
      refine .inr ⟨?_, .inl rfl⟩
      rintro ⟨m', hm⟩
      rw [hs] at hm
      cases hm
  | error e m₁ =>
    rw [hs] at hx
    obtain rfl : m₁ = m.recalling x := hx
    refine .inr ⟨?_, .inr ⟨e, rfl⟩⟩
    rintro ⟨m', hm⟩
    rw [hs] at hm
    cases hm

inductive RangeTry (i : Nat) (a b : Address) (m : Machine) : EStateM.Result Failure Machine Bool → Prop
  | stop {x : Option Regexp} : i ∈ m.editor.ranges → b.Matches m →
      RangeTry i a b m (.ok true ((m.recalling x).ranging (m.editor.ranges.erase i)))
  | stay {x : Option Regexp} : i ∈ m.editor.ranges → ¬b.Matches m → RangeTry i a b m (.ok true (m.recalling x))
  | start {x : Option Regexp} : i ∉ m.editor.ranges → a.Matches m →
      RangeTry i a b m (.ok true ((m.recalling x).ranging (i :: m.editor.ranges)))
  | pass {x : Option Regexp} : i ∉ m.editor.ranges → ¬a.Matches m → RangeTry i a b m (.ok false (m.recalling x))
  | failInside {x : Option Regexp} {e : Failure} : i ∈ m.editor.ranges → ¬b.Matches m →
      RangeTry i a b m (.error e (m.recalling x))
  | failOutside {x : Option Regexp} {e : Failure} : i ∉ m.editor.ranges → ¬a.Matches m →
      RangeTry i a b m (.error e (m.recalling x))

section

variable {i : Nat} {a b : Address} {m : Machine}

lemma inRange_of_mem (h : i ∈ m.editor.ranges) :
    Command.inRange i a b m = (do
      if ← b.selects then update fun e => { e with ranges := e.ranges.erase i }
      return true) m := by
  rw [Command.inRange, bind_ok (show editor m = .ok m.editor m from rfl), if_pos (List.contains_iff_mem.2 h)]

lemma inRange_of_not_mem (h : i ∉ m.editor.ranges) :
    Command.inRange i a b m = (do
      let found ← a.selects
      if found then update fun e => { e with ranges := i :: e.ranges }
      return found) m := by
  rw [Command.inRange, bind_ok (show editor m = .ok m.editor m from rfl),
    if_neg fun hc => h (List.contains_iff_mem.1 hc)]

lemma rangeTry_inRange (i : Nat) (a b : Address) (m : Machine) : RangeTry i a b m (Command.inRange i a b m) := by
  by_cases h : i ∈ m.editor.ranges
  · rw [inRange_of_mem h]
    obtain ⟨x, ⟨hb, hs⟩ | ⟨hb, hs | ⟨e, hs⟩⟩⟩ := selects_cases b m
    · rw [bind_ok hs]
      exact .stop h hb
    · rw [bind_ok hs]
      exact .stay h hb
    · rw [bind_error hs]
      exact .failInside h hb
  · rw [inRange_of_not_mem h]
    obtain ⟨x, ⟨ha, hs⟩ | ⟨ha, hs | ⟨e, hs⟩⟩⟩ := selects_cases a m
    · rw [bind_ok hs]
      exact .start h ha
    · rw [bind_ok hs]
      exact .pass h ha
    · rw [bind_error hs]
      exact .failOutside h ha

lemma RangeTry.found_iff {found : Bool} {m' : Machine} (h : RangeTry i a b m (.ok found m')) :
    found = true ↔ i ∈ m.editor.ranges ∨ a.Matches m := by
  cases h with
  | stop hi _ | stay hi _ => simp [hi]
  | start _ ha => simp [ha]
  | pass hi ha => simp [hi, ha]

lemma not_mem_erase {i : Nat} {ranges : List Nat} (hn : ranges.count i ≤ 1) : i ∉ ranges.erase i := by
  rw [← List.count_pos_iff, List.count_erase_self]
  omega

lemma RangeTry.mem_iff {r : EStateM.Result Failure Machine Bool} (h : RangeTry i a b m r)
    (hn : m.editor.ranges.count i ≤ 1) :
    i ∈ (final r).editor.ranges ↔
      i ∈ m.editor.ranges ∧ ¬b.Matches m ∨ i ∉ m.editor.ranges ∧ a.Matches m := by
  cases h with
  | stop hi hb => simp [final, hi, hb, not_mem_erase hn]
  | stay hi hb | failInside hi hb => simp [final, hi, hb]
  | start hi ha => simp [final, hi, ha]
  | pass hi ha | failOutside hi ha => simp [final, hi, ha]

lemma RangeTry.count_le {r : EStateM.Result Failure Machine Bool} (h : RangeTry i a b m r)
    (hn : m.editor.ranges.count i ≤ 1) : (final r).editor.ranges.count i ≤ 1 := by
  cases h with
  | stop hi hb => exact Nat.le_trans (List.erase_sublist.count_le i) hn
  | start hi ha => simp [final, List.count_eq_zero.2 hi]
  | _ => exact hn

end

section

variable {p : Program} {i : Nat} {c : Command} {a b : Address} (hc : p[i]? = some c) (ha : c.first = some a)
  (hb : c.second = some b)
include ha hb

lemma selected_eq (m : Machine) :
    c.selected i m = (do return (← Command.inRange i a b) != c.negated) m := by
  rw [Command.selected, ha, hb]

lemma found_iff_of_selected {found : Bool} {m m' : Machine} (h : c.selected i m = .ok found m') :
    found ≠ c.negated ↔ i ∈ m.editor.ranges ∨ a.Matches m := by
  rw [selected_eq ha hb] at h
  obtain ⟨inside, m₁, hr, h⟩ := Outcome.bind_eq_ok.1 h
  have ht := rangeTry_inRange i a b m
  rw [hr] at ht
  rw [← ht.found_iff]
  cases h
  cases inside <;> cases c.negated <;> simp

include hc

-- After the addresses were looked at, nothing in the turn touches the ranges.
lemma ranges_turn (m : Machine) :
    (final (turn p i m)).editor.ranges = (final (Command.inRange i a b m)).editor.ranges := by
  have hw : ∀ m m', Work m m' → m'.editor.ranges = m.editor.ranges := fun _ _ h => h.ranges_eq
  calc (final (turn p i m)).editor.ranges
      = (final (c.attempt i m)).editor.ranges := by
        rw [turn, hc]
        exact final_bind (fun r => (work_afterAttempt c r).final_eq hw) _ m
    _ = (final (c.selected i m)).editor.ranges :=
        final_bind (fun found => (work_afterSelected i c found).final_eq hw) _ m
    _ = (final (Command.inRange i a b m)).editor.ranges := by
        rw [selected_eq ha hb]
        exact final_bind (g := fun m : Machine => m.editor.ranges) (fun _ _ => rfl) _ m

end

section

variable {i : Nat} {c : Command} {t : Text} (hact : c.action = .change t) {a b : Address} (ha : c.first = some a)
  (hb : c.second = some b)

include hact hb in
lemma perform_change_of_mem {m : Machine} (hi : i ∈ m.editor.ranges) :
    c.perform i m = .ok .stop { m with editor := { m.editor with pattern := none } } := by
  have hc : (c.second.isNone || !m.editor.ranges.contains i) = false := by simp [hb, hi]
  rw [Command.perform, hact]
  dsimp only
  rw [bind_ok (show editor m = .ok m.editor m from rfl), hc]
  rfl

include hact in
lemma perform_change_of_not_mem {m : Machine} (hi : i ∉ m.editor.ranges) :
    c.perform i m = (do
      print t
      setPattern none
      return Flow.stop) m := by
  have hc : (c.second.isNone || !m.editor.ranges.contains i) = true := by simp [hi]
  rw [Command.perform, hact]
  dsimp only
  rw [bind_ok (show editor m = .ok m.editor m from rfl), hc]
  rfl

include ha hb in
lemma attempt_eq (hn : c.negated = false) (m : Machine) :
    c.attempt i m = (do
      if ← Command.inRange i a b then return (true, ← c.perform i) else return (false, Flow.onward)) m := by
  rw [Command.attempt, bind_of_eq (selected_eq ha hb m), hn]
  simp only [bind_assoc, pure_bind, Bool.bne_false]

include hact in
lemma printed_change_of_not_mem {m : Machine} (hi : i ∉ m.editor.ranges) :
    (final (c.perform i m)).editor.printed = m.editor.printed.push t := by
  rw [perform_change_of_not_mem hact hi, ← printed_print]
  exact final_bind (g := fun m : Machine => m.editor.printed) (fun _ _ => rfl) _ m

include hact hb in
lemma pattern_change {m m' : Machine} {flow : Flow} (h : c.perform i m = .ok flow m') : m'.editor.pattern = none := by
  by_cases hi : i ∈ m.editor.ranges
  · rw [perform_change_of_mem hact hb hi] at h
    cases h
    rfl
  · rw [perform_change_of_not_mem hact hi] at h
    obtain ⟨_, m₁, -, h⟩ := Outcome.bind_eq_ok.1 h
    cases h
    rfl

include hact ha hb in
lemma printed_attempt_change (hneg : c.negated = false) {m : Machine} (hn : m.editor.ranges.count i ≤ 1) :
    (i ∈ m.editor.ranges ∧ b.Matches m → (final (c.attempt i m)).editor.printed = m.editor.printed.push t) ∧
    (¬(i ∈ m.editor.ranges ∧ b.Matches m) → (final (c.attempt i m)).editor.printed = m.editor.printed) := by
  have hperform (m₁ : Machine) : (final ((do return (true, ← c.perform i) : Edit (Bool × Flow)) m₁)).editor.printed =
      (final (c.perform i m₁)).editor.printed :=
    final_bind (g := fun m : Machine => m.editor.printed) (fun _ _ => rfl) _ m₁
  rw [attempt_eq ha hb hneg]
  have ht := rangeTry_inRange i a b m
  generalize hr : Command.inRange i a b m = r at ht
  cases ht with
  | stop hi hm =>
    rw [bind_ok hr, if_pos rfl, hperform, printed_change_of_not_mem hact (not_mem_erase hn)]
    exact ⟨fun _ => rfl, fun h => absurd ⟨hi, hm⟩ h⟩
  | @stay x hi hm =>
    rw [bind_ok hr, if_pos rfl, hperform, perform_change_of_mem (m := m.recalling x) hact hb hi]
    exact ⟨fun h => absurd h.2 hm, fun _ => rfl⟩
  | start hi hm =>
    rw [bind_ok hr, if_pos rfl, hperform, perform_change_of_mem hact hb (List.mem_cons_self ..)]
    exact ⟨fun h => absurd h.1 hi, fun _ => rfl⟩
  | pass hi hm =>
    rw [bind_ok hr]
    exact ⟨fun h => absurd h.1 hi, fun _ => rfl⟩
  | failInside hi hm =>
    rw [bind_error hr]
    exact ⟨fun h => absurd h.2 hm, fun _ => rfl⟩
  | failOutside hi hm =>
    rw [bind_error hr]
    exact ⟨fun h => absurd h.1 hi, fun _ => rfl⟩

include hact ha hb in
lemma pattern_attempt_change (hneg : c.negated = false) {m m' : Machine} {r : Bool × Flow}
    (h : c.attempt i m = .ok r m') :
    (i ∈ m.editor.ranges ∨ a.Matches m → m'.editor.pattern = none) ∧
      (¬(i ∈ m.editor.ranges ∨ a.Matches m) → m'.editor.pattern = m.editor.pattern) := by
  rw [attempt_eq ha hb hneg] at h
  obtain ⟨found, m₁, hr, h⟩ := Outcome.bind_eq_ok.1 h
  have ht := rangeTry_inRange i a b m
  rw [hr] at ht
  rw [← ht.found_iff]
  cases found with
  | true =>
    obtain ⟨flow, m₂, hp, h⟩ := Outcome.bind_eq_ok.1 h
    cases h
    exact ⟨fun _ => pattern_change hact hb hp, fun hf => absurd rfl hf⟩
  | false =>
    cases h
    cases ht
    exact ⟨nofun, fun _ => rfl⟩

end

end StreamEditor
