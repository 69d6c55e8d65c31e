import Mathlib.Data.List.Basic
import StreamEditor.Proofs.Editor.CycleEnd
import StreamEditor.Proofs.Editor.Safety
import StreamEditor.Proofs.Output.Shown
import StreamEditor.Proofs.Script.Forward

/-! Runs as lists of cycles, each with the commands that were tried. What a cycle shows is what its commands
show, then the pattern space, then what was queued. -/

namespace StreamEditor

open Edit Outcome

structure Try where
  position : Nat
  command : Command
  selected : Bool
  state : Machine

namespace Try

def lines (t : Try) : List Line := if t.selected then t.command.lines t.position t.state else []

def queued (t : Try) : List Text := if t.selected then t.command.queued t.state else []

end Try

structure Trying (p : Program) (i : Nat) (m : Machine) (t : Try) (next : Option Nat) (m' : Machine) : Prop where
  position : t.position = i
  command : p[i]? = some t.command
  decided : t.command.selected i m = .ok t.selected t.state
  attempted : ∃ flow m₁, t.command.attempt i m = .ok (t.selected, flow) m₁ ∧
    record t.command t.selected m₁ = .ok () m' ∧ t.command.follow flow = next

inductive Pass (p : Program) : Nat → Machine → List Try → Machine → Prop
  | last {i : Nat} {m m' : Machine} {t : Try} : Trying p i m t none m' → Pass p i m [t] m'
  | next {i j : Nat} {m m₁ m' : Machine} {t : Try} {ts : List Try} :
      Trying p i m t (some j) m₁ → Pass p j m₁ ts m' → Pass p i m (t :: ts) m'

/-- A cycle: its start, the commands tried in it, where they come to a stop, and its end. -/
structure Lap where
  start : Machine
  tries : List Try
  stop : Machine
  finish : Machine

namespace Lap

structure Of (p : Program) (more : Bool) (l : Lap) : Prop where
  pass : Pass p 0 l.start l.tries l.stop
  ended : ∃ t, l.tries.getLast? = some t ∧ endCycle t.command t.selected l.stop = .ok more l.finish

def leftover (l : Lap) : List Text :=
  if l.tries.getLast?.any (·.command.action = .deleteFirst) then [] else l.stop.editor.pattern.toList

def queued (l : Lap) : List Text := l.tries.flatMap Try.queued

def lines (l : Lap) : List Line :=
  l.tries.flatMap Try.lines ++ unasked l.leftover ++ asked (l.start.queue ++ l.queued)

def output (quiet : Bool) (l : Lap) : List Text :=
  (l.tries.flatMap fun t => shownOf quiet t.lines) ++ (if quiet then [] else l.leftover) ++ l.queued

end Lap

inductive Laps (p : Program) : Machine → List Lap → Bool → Machine → Prop
  | none (m : Machine) : Laps p m [] true m
  | last {l : Lap} : l.Of p false → Laps p l.start [l] false l.finish
  | next {l : Lap} {laps : List Lap} {more : Bool} {m : Machine} :
      l.Of p true → Laps p l.finish laps more m → Laps p l.start (l :: laps) more m

def triedIn (laps : List Lap) : Nat := (laps.flatMap Lap.tries).length

@[simp] lemma triedIn_nil : triedIn [] = 0 := rfl

@[simp] lemma triedIn_cons (l : Lap) (laps : List Lap) : triedIn (l :: laps) = l.tries.length + triedIn laps := by
  simp [triedIn]

@[simp] lemma triedIn_append (laps laps' : List Lap) : triedIn (laps ++ laps') = triedIn laps + triedIn laps' := by
  simp [triedIn]

/-- The cycles of a run over a source so far; is there another one after them? -/
inductive RunsOver (p : Program) (source : Source) (destination : Destination) (m : Machine) :
    List Lap → Bool → Machine → Prop
  | empty {m' : Machine} : start p source destination m = .ok false m' → RunsOver p source destination m [] false m'
  | laps {m₁ m' : Machine} {laps : List Lap} {more : Bool} : start p source destination m = .ok true m₁ →
      Laps p m₁ laps more m' → RunsOver p source destination m laps more m'

section

variable {p : Program} {i : Nat} {m m' : Machine} {quiet : Bool}

lemma Move.quiet_eq (h : Move i m m') : m'.editor.quiet = m.editor.quiet := by
  rcases h with h | h
  · obtain ⟨x, ranges, rfl⟩ := h.exists_eq
    rfl
  · cases h with
    | remember h =>
      cases h
      rfl
    | display h => cases h <;> rfl
    | _ => rfl

lemma WorkBy.quiet_eq (h : Work m m') : m'.editor.quiet = m.editor.quiet := Move.quiet_eq (i := 0) (.inr h)

lemma Look.kept (h : Look i m m') :
    (m'.shown, m'.queue, m'.editor.quiet, m'.store) = (m.shown, m.queue, m.editor.quiet, m.store) := by
  obtain ⟨x, ranges, rfl⟩ := h.exists_eq
  rfl

lemma kept_of_selected {c : Command} {found : Bool} (h : c.selected i m = .ok found m') :
    m'.shown = m.shown ∧ m'.queue = m.queue ∧ m'.editor.quiet = m.editor.quiet ∧ m'.store = m.store := by
  have hk := (within_selected i c).keeps (g := fun m => (m.shown, m.queue, m.editor.quiet, m.store))
    (fun _ _ hl => hl.kept) m found m' h
  simpa only [Prod.mk.injEq] using hk

lemma kept_of_record {c : Command} {selected : Bool} (h : record c selected m = .ok () m') :
    m'.editor = m.editor ∧ m'.store = m.store := by
  cases h
  dsimp only
  split <;> exact ⟨rfl, rfl⟩

lemma of_attempt {c : Command} {selected : Bool} {flow : Flow} (h : c.attempt i m = .ok (selected, flow) m') :
    ∃ m₁, c.selected i m = .ok selected m₁ ∧
      (if selected then c.perform i else pure .onward : Edit Flow) m₁ = .ok flow m' := by
  obtain ⟨found, m₁, hs, h⟩ := Outcome.bind_eq_ok.1 h
  cases found with
  | true =>
    obtain ⟨f, m₂, hp, h⟩ := Outcome.bind_eq_ok.1 h
    cases h
    exact ⟨_, hs, hp⟩
  | false =>
    cases h
    exact ⟨_, hs, rfl⟩

lemma Trying.adds {t : Try} {next : Option Nat} (h : Trying p i m t next m') (hq : m.editor.quiet = quiet) :
    m'.shown = m.shown ++ shownOf quiet t.lines ∧ m'.queue = m.queue ++ t.queued ∧ m'.editor.quiet = quiet := by
  obtain ⟨rfl, -, hs, flow, m₁, ha, hr, -⟩ := h
  obtain ⟨hshown, hqueue, hquiet, -⟩ := kept_of_selected hs
  obtain ⟨m₂, hs', hp⟩ := of_attempt ha
  obtain rfl : t.state = m₂ := by
    rw [hs] at hs'
    cases hs'
    rfl
  rw [Machine.shown, Machine.queue, (kept_of_record hr).1, Try.lines, Try.queued, ← hq, ← hshown, ← hqueue, ← hquiet]
  cases hsel : t.selected with
  | true =>
    rw [hsel] at hp
    have hadds := adds_perform t.position t.command flow m₁ hp
    exact ⟨hadds.1, hadds.2, (within_perform _ _).keeps (fun _ _ h => h.quiet_eq) _ _ _ hp⟩
  | false =>
    rw [hsel] at hp
    cases hp
    simp

lemma Pass.adds {ts : List Try} (h : Pass p i m ts m') (hq : m.editor.quiet = quiet) :
    m'.shown = m.shown ++ shownOf quiet (ts.flatMap Try.lines) ∧ m'.queue = m.queue ++ ts.flatMap Try.queued ∧
      m'.editor.quiet = quiet := by
  induction h with
  | last ht => simpa using ht.adds hq
  | next ht _ ih =>
    obtain ⟨hs, hqu, hq⟩ := ht.adds hq
    obtain ⟨hs', hqu', hq'⟩ := ih hq
    rw [hs', hqu', hs, hqu]
    simp [hq']

lemma showCycle_adds {last : Command} (h : showCycle last m = .ok () m') :
    m'.shown = m.shown ++
      shownOf m.editor.quiet (unasked (if last.action = .deleteFirst then [] else m.editor.pattern.toList)) ++ m.queue ∧
      m'.queue = [] := by
  have hprint (ts : List Text) (h : (do ts.forM print; clearQueue) m = .ok () m') :
      m'.shown = m.shown ++ ts ∧ m'.queue = [] := by
    obtain ⟨_, m₁, hf, h⟩ := Outcome.bind_eq_ok.1 h
    cases h
    exact ⟨(adds_forM_print ts _ m₁ hf).1, rfl⟩
  by_cases hd : last.action = .deleteFirst
  · rw [showCycle_deleteFirst m hd] at h
    simpa [hd, unasked] using hprint _ h
  · rw [showCycle_of_ne m hd] at h
    simpa [hd, Editor.leftover] using hprint _ h

lemma adds_nextCycle (last : Command) : Adds (nextCycle last) m [] [] := by
  have hc {m : Machine} : Adds (do
      closeOutput
      return (← editor).pattern.isSome) m [] [] :=
    adds_closeOutput.done fun _ _ => adds_after_editor (adds_pure _)
  rw [nextCycle]
  dsimp only
  split
  · exact adds_readLine.andThen fun line _ _ => (adds_setPattern line).andThen fun _ _ _ => hc
  · exact hc

lemma endCycle_adds {last : Command} {selected more : Bool} (h : endCycle last selected m = .ok more m') :
    m'.shown = m.shown ++
      shownOf m.editor.quiet (unasked (if last.action = .deleteFirst then [] else m.editor.pattern.toList)) ++ m.queue ∧
      m'.queue = [] ∧ m'.editor.quiet = m.editor.quiet := by
  have hquiet := (within_endCycle last selected).keeps (fun _ _ h => h.quiet_eq) _ _ _ h
  obtain ⟨_, m₁, hs, h⟩ := Outcome.bind_eq_ok.1 h
  obtain ⟨hs, hq⟩ := showCycle_adds hs
  split at h
  · cases h
    exact ⟨hs, hq, hquiet⟩
  · obtain ⟨hs', hq'⟩ := adds_nextCycle last more m' h
    rw [hs', hq', hs, hq]
    simp [hquiet]

end

section

variable {p : Program} {l : Lap} {laps : List Lap} {more quiet : Bool} {m m' : Machine}

lemma Lap.Of.adds (h : l.Of p more) (hq : l.start.editor.quiet = quiet) :
    l.finish.shown = l.start.shown ++ shownOf quiet l.lines ∧ l.finish.queue = [] ∧ l.finish.editor.quiet = quiet := by
  obtain ⟨hp, t, ht, he⟩ := h
  obtain ⟨hs, hqu, hq⟩ := hp.adds hq
  obtain ⟨hs', hqu', hq'⟩ := endCycle_adds he
  refine ⟨?_, hqu', hq'.trans hq⟩
  rw [hs', hs, hqu, hq, Lap.lines, Lap.leftover, Lap.queued, ht]
  simp

lemma Laps.adds (h : Laps p m laps more m') (hq : m.editor.quiet = quiet) :
    m'.shown = m.shown ++ shownOf quiet (laps.flatMap Lap.lines) := by
  induction h with
  | none m => rw [List.flatMap_nil, shownOf_nil, List.append_nil]
  | last hl => simpa using (hl.adds hq).1
  | next hl _ ih =>
    obtain ⟨hs, -, hq⟩ := hl.adds hq
    rw [ih hq, hs]
    simp

lemma Laps.queue_eq_nil (h : Laps p m laps more m') (hq : m.queue = []) :
    m'.queue = [] ∧ ∀ l ∈ laps, l.start.queue = [] := by
  induction h with
  | none m => exact ⟨hq, by simp⟩
  | last hl => exact ⟨(hl.adds rfl).2.1, by simpa using hq⟩
  | next hl _ ih =>
    obtain ⟨hm, hls⟩ := ih (hl.adds rfl).2.1
    exact ⟨hm, List.forall_mem_cons.2 ⟨hq, hls⟩⟩

lemma Laps.lap_adds (h : Laps p m laps more m') (hq : m.editor.quiet = quiet) :
    ∀ l ∈ laps, l.finish.shown = l.start.shown ++ shownOf quiet l.lines := by
  induction h with
  | none m => simp
  | last hl => simpa using (hl.adds hq).1
  | next hl _ ih =>
    obtain ⟨hs, -, hq⟩ := hl.adds hq
    exact List.forall_mem_cons.2 ⟨hs, ih hq⟩

end

section

variable {p : Program} {i budget : Nat} {m m' : Machine}

lemma Pass.cycle {ts : List Try} (h : Pass p i m ts m') :
    Cycle p i m (ts.map fun t => (t.command, t.selected)) m' := by
  induction h with
  | last ht =>
    obtain ⟨-, hc, -, flow, m₁, ha, hr, hf⟩ := ht
    exact .last hc ha hr hf
  | next ht _ ih =>
    obtain ⟨-, hc, -, flow, m₁, ha, hr, hf⟩ := ht
    exact .next hc ha hr hf ih

lemma runFrom_lap {l : Lap} {more : Bool} (h : l.Of p more) (budget : Nat) :
    runFrom p (l.tries.length + budget) 0 l.start = (if more then runFrom p budget 0 else pure ()) l.finish := by
  obtain ⟨hp, t, ht, he⟩ := h
  have hr := runFrom_cycle hp.cycle (by rw [List.getLast?_map, ht]; rfl) budget
  rw [List.length_map] at hr
  rw [hr, bind_ok he]

lemma runFrom_laps {laps : List Lap} {more : Bool} (h : Laps p m laps more m') (budget : Nat) :
    runFrom p (triedIn laps + budget) 0 m = (if more then runFrom p budget 0 else pure ()) m' := by
  induction h with
  | none m => simp
  | last hl => simpa using runFrom_lap hl budget
  | next hl _ ih => rw [triedIn_cons, Nat.add_assoc, runFrom_lap hl, if_pos rfl, ih]

lemma trying_of_turn {c : Command} {next : Option Nat} (hc : p[i]? = some c) (h : turn p i m = .ok next m') :
    ∃ t, t.command = c ∧ ((∃ j, next = some j ∧ Trying p i m t (some j) m') ∨
      ∃ m₁ more, Trying p i m t none m₁ ∧ endCycle c t.selected m₁ = .ok more m' ∧
        next = if more then some 0 else none) := by
  rw [turn, hc] at h
  obtain ⟨⟨selected, flow⟩, m₁, ha, h⟩ := Outcome.bind_eq_ok.1 h
  obtain ⟨_, m₂, hr, h⟩ := Outcome.bind_eq_ok.1 h
  obtain ⟨m₃, hs, -⟩ := of_attempt ha
  refine ⟨⟨i, c, selected, m₃⟩, rfl, ?_⟩
  cases hf : c.follow flow with
  | some j =>
    rw [hf] at h
    cases h
    exact .inl ⟨j, rfl, rfl, hc, hs, flow, m₁, ha, hr, hf⟩
  | none =>
    rw [hf] at h
    obtain ⟨more, m₄, he, h⟩ := Outcome.bind_eq_ok.1 h
    refine .inr ⟨m₂, more, ⟨rfl, hc, hs, flow, m₁, ha, hr, hf⟩, ?_⟩
    cases more with
    | true =>
      cases h
      exact ⟨he, rfl⟩
    | false =>
      cases h
      exact ⟨he, rfl⟩

variable (hp : p.Closed)
include hp

lemma exists_pass (hi : i < p.length) (h : runFrom p budget i m = .ok () m') :
    ∃ ts stop t more finish rest, Pass p i m ts stop ∧ ts.getLast? = some t ∧
      endCycle t.command t.selected stop = .ok more finish ∧ budget = ts.length + rest ∧
      (if more then runFrom p rest 0 else pure ()) finish = .ok () m' := by
  induction budget generalizing i m with
  | zero => cases h
  | succ budget ih =>
    obtain ⟨next, m₁, hturn, h⟩ := Outcome.bind_eq_ok.1 h
    obtain ⟨t, hc, ⟨j, rfl, ht⟩ | ⟨m₂, more, ht, he, rfl⟩⟩ := trying_of_turn (List.getElem?_eq_getElem hi) hturn
    · have hj : j < p.length := by
        obtain ⟨-, hc, -, flow, _, -, -, hf⟩ := ht
        refine hp.links t.command (List.mem_of_getElem? hc) j ?_
        cases flow with
        | onward => exact .inl hf
        | branch => exact .inr hf
        | stop => cases hf
      obtain ⟨ts, stop, t', more, finish, rest, hpass, hl, he, hr, h⟩ := ih hj h
      refine ⟨t :: ts, stop, t', more, finish, rest, .next ht hpass, ?_, he, ?_, h⟩
      · rw [List.getLast?_cons, hl]
        rfl
      · rw [hr, List.length_cons]
        omega
    · refine ⟨[t], m₂, t, more, m₁, budget, .last ht, rfl, hc ▸ he, Nat.add_comm _ _, ?_⟩
      cases more <;> exact h

lemma exists_laps (h : runFrom p budget 0 m = .ok () m') :
    ∃ laps, Laps p m laps false m' ∧ triedIn laps ≤ budget := by
  induction budget using Nat.strongRecOn generalizing m with
  | _ budget ih =>
    obtain ⟨ts, stop, t, more, finish, rest, hpass, hl, he, hr, h⟩ := exists_pass hp hp.length_pos h
    have hof : (Lap.mk m ts stop finish).Of p more := ⟨hpass, t, hl, he⟩
    have hts : 0 < ts.length := by
      cases hpass <;> exact Nat.succ_pos _
    cases more with
    | true =>
      obtain ⟨laps, hlaps, hle⟩ := ih rest (by omega) h
      refine ⟨_, .next hof hlaps, ?_⟩
      rw [triedIn_cons, hr]
      exact Nat.add_le_add_left hle _
    | false =>
      cases h
      refine ⟨_, .last hof, ?_⟩
      rw [triedIn_cons, hr]
      exact Nat.add_le_add_left (Nat.zero_le _) _

end

section

variable {p : Program} {source : Source} {destination : Destination} {m m' : Machine} {more quiet : Bool}

lemma lines_of_start (h : start p source destination m = .ok more m') :
    ∃ lines, source.lines m.store = .ok lines := by
  obtain ⟨_, m₁, hg, h⟩ := Outcome.bind_eq_ok.1 h
  cases hg
  obtain ⟨lines, m₂, hl, -⟩ := Outcome.bind_eq_ok.1 h
  exact ⟨lines, (lift_eq_ok hl).1⟩

lemma of_start (h : start p source destination m = .ok more m') :
    m'.shown = [] ∧ m'.queue = m.queue ∧ m'.editor.quiet = m.editor.quiet := by
  obtain ⟨lines, hs⟩ := lines_of_start h
  rw [start_eq hs] at h
  have ha : Adds (do
      openOutput destination
      let line ← readLine
      setPattern line
      return line.isSome) { m with editor := { m.editor with
        reader := .ofLines p.asksLast lines, lineNumber := 0, printed := #[] } } [] [] :=
    (adds_openOutput destination).andThen fun _ _ _ => adds_readLine.andThen fun line _ _ =>
      (adds_setPattern line).done fun _ _ => adds_pure _
  obtain ⟨hshown, hqueue⟩ := ha more m' h
  exact ⟨hshown, by simpa using hqueue, (within_opening destination).keeps (fun _ _ h => h.quiet_eq) _ _ _ h⟩

lemma RunsOver.adds {laps : List Lap} (h : RunsOver p source destination m laps more m') :
    m'.shown = shownOf m.editor.quiet (laps.flatMap Lap.lines) := by
  cases h with
  | empty hs => exact (of_start hs).1
  | laps hs hl =>
    obtain ⟨hshown, -, hquiet⟩ := of_start hs
    rw [hl.adds hquiet, hshown, List.nil_append]

lemma RunsOver.lap_adds {laps : List Lap} (h : RunsOver p source destination m laps more m') :
    ∀ l ∈ laps, l.finish.shown = l.start.shown ++ shownOf m.editor.quiet l.lines := by
  cases h with
  | empty _ => simp
  | laps hs hl => exact hl.lap_adds (of_start hs).2.2

lemma RunsOver.queue_eq_nil {laps : List Lap} (h : RunsOver p source destination m laps more m') (hq : m.queue = []) :
    m'.queue = [] ∧ ∀ l ∈ laps, l.start.queue = [] := by
  cases h with
  | empty hs => exact ⟨(of_start hs).2.1.trans hq, by simp⟩
  | laps hs hl => exact hl.queue_eq_nil ((of_start hs).2.1.trans hq)

lemma exists_runsOver (hp : p.Closed) (hm : m.editor.program = some p) {budget : Nat}
    (h : apply budget source destination m = .ok () m') :
    ∃ laps, RunsOver p source destination m laps false m' ∧ triedIn laps ≤ budget := by
  rw [apply_eq hm] at h
  obtain ⟨more, m₁, hs, h⟩ := Outcome.bind_eq_ok.1 h
  cases more with
  | true =>
    obtain ⟨laps, hl, hle⟩ := exists_laps hp h
    exact ⟨laps, .laps hs hl, hle⟩
  | false =>
    cases h
    exact ⟨[], .empty hs, Nat.zero_le _⟩

lemma RunsOver.apply_eq {laps : List Lap} (h : RunsOver p source destination m laps more m')
    (hm : m.editor.program = some p) (budget : Nat) :
    apply (triedIn laps + budget) source destination m = (if more then runFrom p budget 0 else pure ()) m' := by
  rw [StreamEditor.apply_eq hm]
  cases h with
  | empty hs =>
    rw [bind_ok hs]
    rfl
  | laps hs hl =>
    rw [bind_ok hs, if_pos rfl]
    exact runFrom_laps hl budget

lemma RunsOver.returns {laps : List Lap} (h : RunsOver p source destination m laps false m')
    (hm : m.editor.program = some p) {budget : Nat} (hb : triedIn laps ≤ budget) :
    apply budget source destination m = .ok () m' := by
  obtain ⟨rest, rfl⟩ := Nat.exists_eq_add_of_le hb
  exact h.apply_eq hm rest

lemma Lap.shownOf_lines {l : Lap} (h : l.start.queue = []) (quiet : Bool) : shownOf quiet l.lines = l.output quiet := by
  simp [lines, output, h, shownOf_flatMap]

lemma RunsOver.shown_eq {laps : List Lap} (h : RunsOver p source destination m laps more m') (hq : m.queue = []) :
    m'.shown = laps.flatMap (Lap.output m.editor.quiet) := by
  rw [h.adds, shownOf_flatMap]
  exact List.flatMap_congr fun l hl => Lap.shownOf_lines ((h.queue_eq_nil hq).2 l hl) _

end

def sampleQueueing : List Text := [['a', 'x'], ['n'], ['i', 'y'], ['2', 'q']]

def sampleQueueingProgram : Program :=
  [⟨1, none, none, false, .append ['x'], some 1, none⟩, ⟨2, none, none, false, .next, some 2, none⟩,
    ⟨3, none, none, false, .insert ['y'], some 3, none⟩, ⟨4, some (.line 2), none, false, .quit, none, none⟩]

end StreamEditor
