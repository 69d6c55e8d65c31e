import StreamEditor.Proofs.Range.Selection

/-! Ranges that end at a line number. The end is met only where the number of a later line equals it, so a
range that starts on that line or below it goes on to the end of the input. -/

namespace StreamEditor

open Edit Outcome

lemma selects_line (n : Nat) (m : Machine) :
    (Address.line n).selects m = .ok (m.editor.lineNumber == n) m := rfl

lemma matches_line_iff {n : Nat} {m : Machine} : (Address.line n).Matches m ↔ m.editor.lineNumber = n := by
  rw [Address.Matches, selects_line]
  constructor
  · rintro ⟨m', h⟩
    cases hb : m.editor.lineNumber == n with
    | true => exact eq_of_beq hb
    | false => simp [hb] at h
  · intro h
    exact ⟨m, by rw [beq_iff_eq.2 h]⟩

lemma selected_lines {i f n : Nat} {c : Command} (ha : c.first = some (.line f)) (hb : c.second = some (.line n))
    (m : Machine) : ∃ found m', c.selected i m = .ok found m' := by
  have hr : ∃ inside m', Command.inRange i (.line f) (.line n) m = .ok inside m' := by
    by_cases hi : i ∈ m.editor.ranges
    · rw [inRange_of_mem hi, bind_ok (selects_line n m)]
      split <;> exact ⟨_, _, rfl⟩
    · rw [inRange_of_not_mem hi, bind_ok (selects_line f m)]
      split <;> exact ⟨_, _, rfl⟩
  obtain ⟨inside, m', hr⟩ := hr
  rw [selected_eq ha hb, bind_ok hr]
  exact ⟨_, _, rfl⟩

def LineByLine (ms : List Machine) : Prop := ∀ k m, ms[k]? = some m → m.editor.lineNumber = k + 1

section

variable {ms : List Machine} (hms : LineByLine ms)
include hms

lemma matchesIn_line_iff {n k : Nat} : (Address.line n).matchesIn ms k ↔ k < ms.length ∧ k + 1 = n := by
  constructor
  · rintro ⟨m, hk, hm⟩
    rw [matches_line_iff, hms k m hk] at hm
    exact ⟨(List.getElem?_eq_some_iff.1 hk).1, hm⟩
  · rintro ⟨hk, hn⟩
    have hm := List.getElem?_eq_getElem hk
    exact ⟨_, hm, matches_line_iff.2 (by rw [hms k _ hm, hn])⟩

lemma covers_line_iff {n s k : Nat} (hk : k < ms.length) :
    Segments.Covers ((Address.line n).matchesIn ms) s k ↔ s ≤ k ∧ (k + 1 ≤ max (s + 1) n ∨ n ≤ s + 1) := by
  constructor
  · rintro ⟨hs, hc⟩
    refine ⟨hs, ?_⟩
    by_contra hn
    exact hc (n - 1) (by omega) (by omega) ((matchesIn_line_iff hms).2 (by omega))
  · rintro ⟨hs, hn⟩
    refine ⟨hs, fun j hj hjk hm => ?_⟩
    have := ((matchesIn_line_iff hms).1 hm).2
    omega

lemma starts_line_iff {B : Nat → Prop} {f s : Nat} (hs : s < ms.length) :
    Segments.Starts ((Address.line f).matchesIn ms) B s ↔ s + 1 = f := by
  constructor
  · intro h
    exact ((matchesIn_line_iff hms).1 h.holds).2
  · intro h
    refine .first ⟨Nat.zero_le s, (matchesIn_line_iff hms).2 ⟨hs, h⟩, fun j _ hj hm => ?_⟩
    have := ((matchesIn_line_iff hms).1 hm).2
    omega

end

lemma found_iff_to_line {p : Program} {i : Nat} {c : Command} {a : Address} {n : Nat} {ms : List Machine} {m : Machine}
    (h : History p i ms m) (hms : LineByLine ms) (hc : p[i]? = some c) (ha : c.first = some a)
    (hb : c.second = some (.line n)) {k : Nat} {mk m' : Machine} {found : Bool} (hk : ms[k]? = some mk)
    (hs : c.selected i mk = .ok found m') :
    found ≠ c.negated ↔ ∃ s, Segments.Starts (a.matchesIn ms) ((Address.line n).matchesIn ms) s ∧
      s ≤ k ∧ (k + 1 ≤ max (s + 1) n ∨ n ≤ s + 1) := by
  rw [found_iff_segments hc ha hb h hk hs, Segments.Selected]
  simp only [covers_line_iff hms (List.getElem?_eq_some_iff.1 hk).1]

/-- A range that ends at line `n` takes the lines from its start to line `n` if it starts above it, and all
lines from its start on if it does not. -/
theorem range_to_line_selects {p : Program} {i : Nat} {c : Command} {a : Address} {n : Nat} {ms : List Machine}
    {m : Machine} (h : History p i ms m) (hms : LineByLine ms) (hc : p[i]? = some c) (ha : c.first = some a)
    (hb : c.second = some (.line n)) {k : Nat} {mk : Machine} (hk : ms[k]? = some mk) :
    (∀ found m', c.selected i mk = .ok found m' →
      (found ≠ c.negated ↔ ∃ s, Segments.Starts (a.matchesIn ms) ((Address.line n).matchesIn ms) s ∧
        s ≤ k ∧ (k + 1 ≤ max (s + 1) n ∨ n ≤ s + 1))) ∧
    ∀ f, a = .line f → 0 < f → ∃ found m', c.selected i mk = .ok found m' ∧
      (found ≠ c.negated ↔ f ≤ k + 1 ∧ (k + 1 ≤ max f n ∨ n ≤ f)) := by
  refine ⟨fun found m' hs => found_iff_to_line h hms hc ha hb hk hs, ?_⟩
  rintro f rfl hf
  obtain ⟨found, m', hs⟩ := selected_lines (i := i) ha hb mk
  refine ⟨found, m', hs, ?_⟩
  have hlt := (List.getElem?_eq_some_iff.1 hk).1
  rw [found_iff_to_line h hms hc ha hb hk hs]
  constructor
  · rintro ⟨s, hstart, hsk, hn⟩
    obtain rfl := (starts_line_iff hms (by omega)).1 hstart
    exact ⟨by omega, hn⟩
  · rintro ⟨hfk, hn⟩
    exact ⟨f - 1, (starts_line_iff hms (by omega)).2 (by omega), by omega, by omega⟩

def samplePrint (first last : Nat) : Program :=
  [⟨1, some (.line first), some (.line last), false, .print, none, none⟩]

def sampleLines (p : Program) : List Machine :=
  sampleTries p (sampleStart p ['a', '\n', 'b', '\n', 'c', '\n']) 3

lemma history_sampleLines (p : Program) : ∃ m, History p 0 (sampleLines p) m :=
  history_sampleTries (.fresh List.not_mem_nil) 3

lemma lineByLine_of_map {ms : List Machine} (h : ms.map (·.editor.lineNumber) = List.range' 1 ms.length) :
    LineByLine ms := by
  intro k m hk
  have hl : (ms.map (·.editor.lineNumber))[k]? = (List.range' 1 ms.length)[k]? := by rw [h]
  have hlt := (List.getElem?_eq_some_iff.1 hk).1
  rw [List.getElem?_map, hk, List.getElem?_range' hlt] at hl
  have hm : m.editor.lineNumber = 1 + 1 * k := Option.some.inj hl
  omega

theorem range_to_line_samplePrint :
    result? (Script.program [['1', ',', '2', 'p']] 1) = some (samplePrint 1 2) ∧
      ∃ ms m mk, History (samplePrint 1 2) 0 ms m ∧ LineByLine ms ∧ ms[2]? = some mk ∧
        ∀ c ∈ samplePrint 1 2, ∃ m', c.selected 0 mk = .ok false m' := by
  obtain ⟨m, h⟩ := history_sampleLines (samplePrint 1 2)
  have hms : LineByLine (sampleLines (samplePrint 1 2)) := lineByLine_of_map (by decide)
  refine ⟨by decide +kernel, _, m, _, h, hms, rfl, fun c hc => ?_⟩
  cases List.mem_singleton.1 hc
  obtain ⟨found, m', hs, hf⟩ := (range_to_line_selects h hms rfl rfl rfl (k := 2) rfl).2 1 rfl (by decide)
  have hn : found = false := by simpa using hf
  exact ⟨m', hn ▸ hs⟩

theorem range_to_line_above_goes_on :
    result? (Script.program [['2', ',', '1', 'p']] 1) = some (samplePrint 2 1) ∧
      ∃ ms m mk, History (samplePrint 2 1) 0 ms m ∧ LineByLine ms ∧ ms[2]? = some mk ∧
        (∀ c ∈ samplePrint 2 1, ∃ m', c.selected 0 mk = .ok true m') ∧ ¬(2 + 1 ≤ max 2 1) := by
  obtain ⟨m, h⟩ := history_sampleLines (samplePrint 2 1)
  refine ⟨by decide +kernel, _, m, _, h, lineByLine_of_map (by decide), rfl, fun c hc => ?_, by decide⟩
  cases List.mem_singleton.1 hc
  exact ⟨_, rfl⟩

end StreamEditor
