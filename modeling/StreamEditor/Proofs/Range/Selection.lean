import StreamEditor.Proofs.Editor.CycleEnd
import StreamEditor.Proofs.Range.Segments
import StreamEditor.Proofs.Range.Try

namespace StreamEditor

open Edit Outcome

def Address.matchesIn (a : Address) (ms : List Machine) (k : Nat) : Prop := ∃ m, ms[k]? = some m ∧ a.Matches m

lemma Address.matchesIn_iff {a : Address} {ms : List Machine} {k : Nat} {m : Machine} (hk : ms[k]? = some m) :
    a.matchesIn ms k ↔ a.Matches m := by
  simp [matchesIn, hk]

/-- The states in which the command at a position was tried since it was loaded, and the present state. In
between other commands are tried, and anything happens that does not touch ranges. -/
inductive History (p : Program) (i : Nat) : List Machine → Machine → Prop
  | fresh {m : Machine} : i ∉ m.editor.ranges → History p i [] m
  | tried {ms : List Machine} {m : Machine} : History p i ms m → History p i (ms ++ [m]) (final (turn p i m))
  | other {ms : List Machine} {m : Machine} {j : Nat} : History p i ms m → j ≠ i →
      History p i ms (final (turn p j m))
  | apart {ms : List Machine} {m m' : Machine} : History p i ms m → m'.editor.ranges = m.editor.ranges →
      History p i ms m'

section

variable {p : Program} {i : Nat} {c : Command} {a b : Address} (hc : p[i]? = some c) (ha : c.first = some a)
  (hb : c.second = some b)
include hc ha hb

lemma History.mem_iff {ms : List Machine} {m : Machine} (h : History p i ms m) :
    (i ∈ m.editor.ranges ↔ Segments.Open (a.matchesIn ms) (b.matchesIn ms) ms.length) ∧
      m.editor.ranges.count i ≤ 1 := by
  induction h with
  | fresh hi => exact ⟨iff_of_false hi Segments.not_open_zero, by simp [List.count_eq_zero.2 hi]⟩
  | @tried ms m _ ih =>
    have ht := rangeTry_inRange i a b m
    have hr := ranges_turn hc ha hb m
    rw [hr]
    refine ⟨?_, ht.count_le ih.2⟩
    have hold (d : Address) : ∀ j < ms.length, d.matchesIn ms j ↔ d.matchesIn (ms ++ [m]) j := by
      intro j hj
      rw [Address.matchesIn, Address.matchesIn, List.getElem?_append_left hj]
    have hnew : (ms ++ [m])[ms.length]? = some m := List.getElem?_concat_length
    rw [ht.mem_iff ih.2, ih.1, List.length_append, List.length_singleton, Segments.open_succ,
      Segments.open_congr (hold a) (hold b), Address.matchesIn_iff hnew, Address.matchesIn_iff hnew]
  | @other ms m j _ hj ih =>
    have hn : (final (turn p j m)).editor.ranges.count i = m.editor.ranges.count i :=
      (within_turn p j).final_eq (g := (·.editor.ranges.count i)) (fun _ _ h => h.count_eq hj) m
    rw [← List.count_pos_iff] at ih ⊢
    rw [hn]
    exact ih
  | apart _ hr ih =>
    rw [hr]
    exact ih

end

lemma History.before {p : Program} {i : Nat} {ms : List Machine} {m : Machine} (h : History p i ms m) {k : Nat}
    {mk : Machine} (hk : ms[k]? = some mk) : History p i (ms.take k) mk := by
  induction h with
  | fresh _ => simp at hk
  | @tried ms m h ih =>
    rcases Nat.lt_or_ge k ms.length with hlt | hge
    · rw [List.getElem?_append_left hlt] at hk
      rw [List.take_append_of_le_length (Nat.le_of_lt hlt)]
      exact ih hk
    · have hlen := (List.getElem?_eq_some_iff.1 hk).1
      rw [List.length_append, List.length_singleton] at hlen
      obtain rfl : k = ms.length := by omega
      rw [List.getElem?_concat_length] at hk
      cases hk
      rwa [List.take_left]
  | other _ _ ih => exact ih hk
  | apart _ _ ih => exact ih hk

section

variable {p : Program} {i : Nat} {c : Command} {a b : Address} (hc : p[i]? = some c) (ha : c.first = some a)
  (hb : c.second = some b) {ms : List Machine} {m : Machine} (h : History p i ms m)
include hc ha hb h

-- The range of the command is open before a try exactly if a segment is.
lemma mem_ranges_iff_open {k : Nat} {mk : Machine} (hk : ms[k]? = some mk) :
    (i ∈ mk.editor.ranges ↔ Segments.Open (a.matchesIn ms) (b.matchesIn ms) k) ∧
      mk.editor.ranges.count i ≤ 1 := by
  obtain ⟨hm, hn⟩ := (h.before hk).mem_iff hc ha hb
  have hlen : (ms.take k).length = k := by
    have := (List.getElem?_eq_some_iff.1 hk).1
    rw [List.length_take]
    omega
  have hold (d : Address) : ∀ j < k, d.matchesIn (ms.take k) j ↔ d.matchesIn ms j := by
    intro j hj
    rw [Address.matchesIn, Address.matchesIn, List.getElem?_take_of_lt hj]
  rw [hlen, Segments.open_congr (hold a) (hold b)] at hm
  exact ⟨hm, hn⟩

lemma found_iff_segments {k : Nat} {mk m' : Machine} {found : Bool} (hk : ms[k]? = some mk)
    (hs : c.selected i mk = .ok found m') :
    found ≠ c.negated ↔ Segments.Selected (a.matchesIn ms) (b.matchesIn ms) k := by
  rw [found_iff_of_selected ha hb hs, Segments.selected_iff, (mem_ranges_iff_open hc ha hb h hk).1,
    Address.matchesIn_iff hk]

end

/-- The lines that a command with two addresses selects are segments: the first address starts one, and the
second ends it at a later try. Only the address that matters is looked at, the range is open exactly while a
segment is, and a text that replaces the lines of a segment is shown once, where the segment ends. -/
theorem range_selects_segments {p : Program} {i : Nat} {c : Command} {a b : Address} {ms : List Machine}
    {m : Machine} (h : History p i ms m) (hc : p[i]? = some c) (ha : c.first = some a) (hb : c.second = some b)
    {k : Nat} {mk : Machine} (hk : ms[k]? = some mk) :
    (∀ found m', c.selected i mk = .ok found m' →
      (found ≠ c.negated ↔ Segments.Selected (a.matchesIn ms) (b.matchesIn ms) k)) ∧
    (Segments.Open (a.matchesIn ms) (b.matchesIn ms) k →
      ∀ a', { c with first := some a' }.selected i mk = c.selected i mk) ∧
    (¬Segments.Open (a.matchesIn ms) (b.matchesIn ms) k →
      ∀ b', { c with second := some b' }.selected i mk = c.selected i mk) ∧
    (i ∈ (final (turn p i mk)).editor.ranges ↔ Segments.Open (a.matchesIn ms) (b.matchesIn ms) (k + 1)) ∧
    ∀ t, c.action = .change t → c.negated = false →
      (Segments.Ends (a.matchesIn ms) (b.matchesIn ms) k →
        (final (c.attempt i mk)).editor.printed = mk.editor.printed.push t) ∧
      (¬Segments.Ends (a.matchesIn ms) (b.matchesIn ms) k →
        (final (c.attempt i mk)).editor.printed = mk.editor.printed) ∧
      ∀ r m', c.attempt i mk = .ok r m' →
        (Segments.Selected (a.matchesIn ms) (b.matchesIn ms) k → m'.editor.pattern = none) ∧
        (¬Segments.Selected (a.matchesIn ms) (b.matchesIn ms) k → m'.editor.pattern = mk.editor.pattern) := by
  obtain ⟨hopen, hn⟩ := mem_ranges_iff_open hc ha hb h hk
  refine ⟨fun found m' hs => found_iff_segments hc ha hb h hk hs, ?_⟩
  rw [Segments.selected_iff, Segments.ends_iff, Segments.open_succ, ← hopen, Address.matchesIn_iff hk,
    Address.matchesIn_iff hk]
  refine ⟨?_, ?_, ?_, ?_⟩
  · intro hi a'
    have he : Command.inRange i a' b mk = Command.inRange i a b mk := by
      rw [inRange_of_mem hi, inRange_of_mem hi]
    rw [selected_eq ha hb]
    exact (selected_eq (c := { c with first := some a' }) rfl hb mk).trans (bind_of_eq he)
  · intro hi b'
    have he : Command.inRange i a b' mk = Command.inRange i a b mk := by
      rw [inRange_of_not_mem hi, inRange_of_not_mem hi]
    rw [selected_eq ha hb]
    exact (selected_eq (c := { c with second := some b' }) ha rfl mk).trans (bind_of_eq he)
  · rw [ranges_turn hc ha hb]
    exact (rangeTry_inRange i a b mk).mem_iff hn
  · intro t hact hneg
    obtain ⟨hends, hnot⟩ := printed_attempt_change hact ha hb hneg hn
    exact ⟨hends, hnot, fun r m' hr => pattern_attempt_change hact ha hb hneg hr⟩

def sampleTries (p : Program) (m : Machine) : Nat → List Machine
  | 0 => []
  | n + 1 => m :: sampleTries p (final (turn p 0 m)) n

lemma history_sampleTries {p : Program} {ms : List Machine} {m : Machine} (h : History p 0 ms m) (n : Nat) :
    ∃ m', History p 0 (ms ++ sampleTries p m n) m' := by
  induction n generalizing ms m with
  | zero => exact ⟨m, by rwa [sampleTries, List.append_nil]⟩
  | succ n ih =>
    obtain ⟨m', hm⟩ := ih h.tried
    exact ⟨m', by rwa [List.append_assoc] at hm⟩

def sampleChange : Program := [⟨1, some (.line 2), some .last, false, .change ['x'], none, none⟩]

theorem range_selects_sampleChange :
    result? (Script.program [['2', ',', '$', 'c', 'x']] 1) = some sampleChange ∧
      ∃ ms m mk, History sampleChange 0 ms m ∧ ms[2]? = some mk ∧
        Segments.Ends ((Address.line 2).matchesIn ms) (Address.last.matchesIn ms) 2 ∧
        ∀ c ∈ sampleChange, (final (c.attempt 0 mk)).editor.printed = mk.editor.printed.push ['x'] := by
  let ms := sampleTries sampleChange (sampleStart sampleChange ['a', '\n', 'b', '\n', 'c', '\n']) 3
  obtain ⟨m, h⟩ : ∃ m, History sampleChange 0 ms m := history_sampleTries (.fresh (by decide)) 3
  have hends : Segments.Ends ((Address.line 2).matchesIn ms) (Address.last.matchesIn ms) 2 := by
    rw [Segments.ends_iff, ← (mem_ranges_iff_open rfl rfl rfl h (k := 2) rfl).1]
    exact ⟨by decide, _, rfl, _, rfl⟩
  refine ⟨by decide +kernel, _, m, _, h, rfl, hends, fun c hc => ?_⟩
  cases List.mem_singleton.1 hc
  exact ((range_selects_segments h rfl rfl rfl rfl).2.2.2.2 ['x'] rfl rfl).1 hends

end StreamEditor
