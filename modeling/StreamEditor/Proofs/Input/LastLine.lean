import Mathlib.Tactic.Lemma
import StreamEditor.Editor.State
import StreamEditor.Proofs.Editor.CycleEnd
import StreamEditor.Proofs.Editor.Flow
import StreamEditor.Proofs.Editor.Safety
import StreamEditor.Proofs.Output.Shown
import StreamEditor.Proofs.Script.Links

/-! The last line. A program that asks for it is run with look-ahead, and then the last line is known for what it
is in every state of a run: when the number of lines read is the number of lines there are. -/

namespace StreamEditor.LineReader

def reads : Nat → LineReader → List (Option Text)
  | 0, _ => []
  | n + 1, r => r.readLine.1 :: reads n r.readLine.2

/-- The lines handed out so far; in between the reader may also have been asked in vain. -/
inductive HandsOut (r : LineReader) : List Text → LineReader → Prop
  | nothing : HandsOut r [] r
  | line {read : List Text} {r' : LineReader} {l : Text} : HandsOut r read r' → r'.readLine.1 = some l →
      HandsOut r (read ++ [l]) r'.readLine.2
  | past {read : List Text} {r' : LineReader} : HandsOut r read r' → r'.readLine.1 = none →
      HandsOut r read r'.readLine.2

variable (asksLast : Bool) (source : List Text)

lemma readLine_ofLines : (ofLines asksLast source).readLine = (source.head?, ofLines asksLast source.tail) := by
  cases asksLast with
  | false => rfl
  | true => cases source <;> rfl

lemma isLast_openBuffered : (openBuffered source).isLast = source.isEmpty := by
  cases source <;> rfl

lemma reads_ofLines (n : Nat) : reads n (ofLines asksLast source) = (List.range n).map (source[·]?) := by
  induction n generalizing source with
  | zero => rfl
  | succ n ih =>
    rw [reads, readLine_ofLines, ih, List.range_succ_eq_map]
    simp [List.head?_eq_getElem?, Function.comp_def]

variable {asksLast source}

lemma HandsOut.exists_rest {read : List Text} {r : LineReader} (h : HandsOut (ofLines asksLast source) read r) :
    ∃ rest, source = read ++ rest ∧ r = ofLines asksLast rest := by
  induction h with
  | nothing => exact ⟨source, rfl, rfl⟩
  | line _ hl ih =>
    obtain ⟨rest, hsource, rfl⟩ := ih
    rw [readLine_ofLines] at hl ⊢
    obtain ⟨rest, rfl⟩ := List.head?_eq_some_iff.1 hl
    exact ⟨rest, by simpa using hsource, rfl⟩
  | past _ hl ih =>
    obtain ⟨rest, hsource, rfl⟩ := ih
    rw [readLine_ofLines] at hl ⊢
    obtain rfl := List.head?_eq_none_iff.1 hl
    exact ⟨[], hsource, rfl⟩

end StreamEditor.LineReader

namespace StreamEditor

open Edit Outcome

section

variable (mode : RegexpMode)

lemma Address.isLast_prepare (a : Address) : (a.prepare mode).value.isLast = a.isLast := by
  cases a with
  | line n | last => rfl
  | regexp source ignoreCase prepared =>
    rw [prepare]
    split <;> rfl

def Command.asksLast (c : Command) : Bool := c.first.any Address.isLast || c.second.any Address.isLast

lemma Command.asksLast_prepare (c : Command) : (c.prepare mode).value.asksLast = c.asksLast := by
  have hfirst (c : Command) : (c.prepareFirst mode).value.asksLast = c.asksLast := by
    rw [prepareFirst]
    split <;> rename_i h
    · rfl
    · simp [asksLast, h, Address.isLast_prepare]
  have hsecond (c : Command) : (c.prepareSecond mode).value.asksLast = c.asksLast := by
    rw [prepareSecond]
    split <;> rename_i h
    · rfl
    · simp [asksLast, h, Address.isLast_prepare]
  have haction (c : Command) : (c.prepareAction mode).value.asksLast = c.asksLast := by
    rw [prepareAction]
    split <;> rfl
  have haddresses : ((c.prepareFirst mode).andThen (prepareSecond mode) id).value.asksLast = c.asksLast :=
    Attempt.andThen_value ((hsecond _).trans (hfirst c)) (hfirst c)
  exact Attempt.andThen_value ((haction _).trans haddresses) haddresses

lemma Program.asksLast_prepare (p : Program) : Program.asksLast (p.prepare mode).value = p.asksLast := by
  have h := congrArg (List.any · id) (prepare_keeps mode (Command.asksLast_prepare mode) p)
  simp only [List.any_map, Function.id_comp] at h
  exact h

end

lemma Program.asksLast_iff {p : Program} :
    p.asksLast = true ↔ ∃ c ∈ p, c.first = some .last ∨ c.second = some .last := by
  have hany (a : Option Address) : a.any Address.isLast = true ↔ a = some .last := by
    rcases a with _ | (_ | _ | _) <;> simp [Address.isLast]
  simp [asksLast, hany]

lemma final_apply_of {P : Machine → Prop} {p : Program} {m : Machine} (hm : m.editor.program = some p)
    {source : Source} {destination : Destination} {budget : Nat} (hstart : P (final (start p source destination m)))
    (hrun : ∀ m₁, P m₁ → P (final (runFrom p budget 0 m₁))) : P (final (apply budget source destination m)) := by
  rw [apply_eq hm]
  cases h : start p source destination m with
  | error e m₁ =>
    rw [h] at hstart
    rwa [bind_error h]
  | ok more m₁ =>
    rw [h] at hstart
    rw [bind_ok h]
    cases more with
    | true => exact hrun m₁ hstart
    | false => exact hstart

lemma final_apply {P : Machine → Prop} (hP : ∀ i m m', Move i m m' → P m → P m') {p : Program} {m : Machine}
    (hm : m.editor.program = some p) {source : Source} {lines : List Text} (hs : source.lines m.store = .ok lines)
    (hopen : P { m with editor := { m.editor with
      reader := .ofLines p.asksLast lines, lineNumber := 0, printed := #[] } })
    (destination : Destination) (budget : Nat) : P (final (apply budget source destination m)) := by
  refine final_apply_of hm ?_ fun _ => final_runFrom hP p budget 0
  rw [start_eq hs]
  exact (within_opening destination).preserves (fun m m' h => hP 0 m m' (.inr h)) hopen

def Machine.Counts (opened : LineReader) (m : Machine) : Prop :=
  ∃ read, opened.HandsOut read m.editor.reader ∧ m.editor.lineNumber = read.length

lemma Machine.Counts.move {opened : LineReader} {i : Nat} {m m' : Machine} (h : Move i m m') (hm : m.Counts opened) :
    m'.Counts opened := by
  obtain ⟨read, hread, hn⟩ := hm
  rcases h with h | h
  · obtain ⟨x, ranges, rfl⟩ := h.exists_eq
    exact ⟨read, hread, hn⟩
  · cases h with
    | remember h =>
      cases h
      exact ⟨read, hread, hn⟩
    | display h => cases h <;> exact ⟨read, hread, hn⟩
    | read =>
      cases hl : m.editor.reader.readLine.1 with
      | none => exact ⟨read, .past hread hl, by simpa [hl] using hn⟩
      | some l => exact ⟨read ++ [l], .line hread hl, by simpa [hl] using hn⟩
    | _ => exact ⟨read, hread, hn⟩

section

variable {m m' : Machine} {i : Nat} {c : Command} {flow : Flow}

lemma flow_fetch (hc : c.action = .next ∨ c.action = .nextAppend) (h : c.perform i m = .ok flow m') :
    flow = .stop ↔ m.editor.reader.readLine.1 = none := by
  have hk : c.action.kind ≠ .branching := by
    rcases hc with hc | hc <;> simp [hc, Action.kind]
  rw [flow_of_perform hk h]
  rcases hc with hc | hc <;> simp [hc, Action.flow, Action.endsCycle]

lemma pattern_deleteFirst (hc : c.action = .deleteFirst) (hn : '\n' ∉ m.space) (h : c.perform i m = .ok flow m') :
    m'.editor.pattern = m.editor.reader.readLine.1.map Text.chomp := by
  have hcontains : m.space.contains '\n' = false := by simpa using hn
  rw [Command.perform, hc] at h
  obtain ⟨t, m₁, ht, h⟩ := Outcome.bind_eq_ok.1 h
  cases ht
  rw [hcontains] at h
  cases h
  rfl

lemma more_nextCycle {more : Bool} (hc : c.action ≠ .deleteFirst) (h : nextCycle c m = .ok more m') :
    more = m.editor.reader.readLine.1.isSome := by
  rw [nextCycle_of_ne m hc] at h
  obtain ⟨line, m₁, hr, h⟩ := Outcome.bind_eq_ok.1 h
  obtain ⟨_, m₂, -, h⟩ := Outcome.bind_eq_ok.1 h
  obtain ⟨_, m₃, -, h⟩ := Outcome.bind_eq_ok.1 h
  cases h
  exact (isSome_of_readLine hr).symm

end

/-- In every state of a run of a program that asks for the last line, the line number is the number of lines read
so far. The last line is selected exactly when this is the number of all lines, and exactly then no command and no
next cycle finds another line. -/
theorem last_selects_last_line {q : Program} (hq : ∃ c ∈ q, c.first = some .last ∨ c.second = some .last)
    {mode : RegexpMode} {m : Machine} (hm : m.editor.program = some (q.prepare mode).value) {source : Source}
    {lines : List Text} (hs : source.lines m.store = .ok lines) {destination : Destination} {budget : Nat}
    {m' : Machine} (h : final (apply budget source destination m) = m') :
    (∃ read, (LineReader.openBuffered lines).HandsOut read m'.editor.reader ∧ read <+: lines ∧
      m'.editor.lineNumber = read.length) ∧
    m'.editor.lineNumber ≤ lines.length ∧
    Address.last.selects m' = .ok (decide (m'.editor.lineNumber = lines.length)) m' ∧
    (∀ (i : Nat) (c : Command) flow m₁, c.action = .next ∨ c.action = .nextAppend → c.perform i m' = .ok flow m₁ →
      (flow = .stop ↔ m'.editor.lineNumber = lines.length)) ∧
    (∀ (i : Nat) (c : Command) flow m₁, c.action = .deleteFirst → '\n' ∉ m'.space → c.perform i m' = .ok flow m₁ →
      (m₁.editor.pattern = none ↔ m'.editor.lineNumber = lines.length)) ∧
    ∀ (c : Command) more m₁, c.action ≠ .deleteFirst → nextCycle c m' = .ok more m₁ →
      (more = false ↔ m'.editor.lineNumber = lines.length) := by
  have hasks : Program.asksLast (q.prepare mode).value = true :=
    (q.asksLast_prepare mode).trans (Program.asksLast_iff.2 hq)
  have hcounts := final_apply (P := Machine.Counts (.ofLines _ lines)) (fun _ _ _ h hc => hc.move h) hm hs
    ⟨[], .nothing, rfl⟩ destination budget
  rw [hasks, h] at hcounts
  obtain ⟨read, hread, hn⟩ := hcounts
  obtain ⟨rest, rfl, hr⟩ := hread.exists_rest
  have hend : m'.editor.lineNumber = (read ++ rest).length ↔ rest = [] := by simp [hn]
  have hline : m'.editor.reader.readLine.1 = rest.head? := by rw [hr, LineReader.readLine_ofLines]
  have hlast : m'.editor.reader.isLast = decide (m'.editor.lineNumber = (read ++ rest).length) := by
    rw [Bool.eq_iff_iff, decide_eq_true_iff, hend, hr]
    exact LineReader.isLast_openBuffered rest ▸ List.isEmpty_iff
  refine ⟨⟨read, hread, List.prefix_append .., hn⟩, by simp [hn], congrArg (EStateM.Result.ok · m') hlast, ?_, ?_, ?_⟩
  all_goals simp only [hend]
  · intro i c flow m₁ hc h
    rw [flow_fetch hc h, hline, List.head?_eq_none_iff]
  · intro i c flow m₁ hc hspace h
    rw [pattern_deleteFirst hc hspace h, hline, Option.map_eq_none_iff, List.head?_eq_none_iff]
  · intro c more m₁ hc h
    rw [more_nextCycle hc h, hline]
    simp

theorem last_selects_last_line_sampleEdits :
    ∃ m m', loadText sampleEdits sampleMachine = .ok () m ∧
      final (apply 1 (.text ['a', 'a', '\n', 'b']) .nowhere m) = m' ∧ m'.editor.lineNumber = 2 ∧
      Address.last.selects m' = .ok true m' := by
  obtain ⟨m, -, hl, -⟩ := apply_sampleEdits
  obtain ⟨n, hp⟩ := program_sampleEdits
  obtain ⟨-, hm⟩ := loaded_of_loadLines hl hp
  have hn : (final (apply 1 (.text ['a', 'a', '\n', 'b']) .nowhere
      (final (loadText sampleEdits sampleMachine)))).editor.lineNumber = 2 := by
    decide +kernel
  rw [hl] at hn
  obtain ⟨-, -, hlast, -⟩ := last_selects_last_line (by decide) hm
    (show Source.lines m.store (.text ['a', 'a', '\n', 'b']) = .ok [['a', 'a', '\n'], ['b']] from rfl)
    (rfl : final (apply 1 _ .nowhere m) = _)
  exact ⟨m, _, hl, rfl, hn, hlast.trans (congrArg (EStateM.Result.ok · _) (decide_eq_true hn))⟩

end StreamEditor
