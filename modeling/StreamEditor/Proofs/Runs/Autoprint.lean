import StreamEditor.Proofs.Runs.Lockstep

namespace StreamEditor

open Edit Outcome

def Machine.withQuiet (m : Machine) (quiet : Bool) : Machine := { m with editor := { m.editor with quiet } }

def SameWork (m n : Machine) : Prop :=
  n = { m with editor := { m.editor with quiet := n.editor.quiet, printed := n.editor.printed } }

def Frame.all : Frame where
  shared _ := True
  reader r r' := r = r'
  input := by
    rintro - r _ rfl
    exact ⟨rfl, rfl⟩
  lastLine := by
    rintro - r _ rfl
    rfl
  trials _ := ⟨trivial, trivial⟩

lemma Frame.fits_all (c : Command) : Frame.all.Fits c := fun _ _ => trivial

section

variable {p : Program} {source : Source} {m n : Machine}

lemma Frame.Agree.sameWork (h : Frame.all.Agree m n) : SameWork m n := by
  have hset := h.settings trivial
  simp only [Machine.settings, Prod.mk.injEq] at hset
  obtain ⟨ho, hp, he, hd, hn, ht⟩ := hset
  rw [SameWork]
  dsimp only
  rw [h.pattern, h.substituted, h.queue, h.store, show m.editor.reader = n.editor.reader from h.reader, h.hold trivial,
    h.lineNumber trivial, h.lastRegexp trivial, h.ranges trivial, h.trials trivial, ho, hp, he, hd, hn, ht]

lemma start_error {destination : Destination} {e : Failure} (hs : source.lines m.store = .error e) :
    start p source destination m = .error e m := by
  rw [start]
  change (lift (source.lines m.store) >>= _) m = _
  rw [hs]
  rfl

lemma alike_start {lines : List Text} (hs : source.lines m.store = .ok lines) :
    Alike Frame.all.Agree (start p source .nowhere (m.withQuiet false))
      (start p source .nowhere (m.withQuiet true)) := by
  rw [start_nowhere (m := m.withQuiet false) hs, start_nowhere (m := m.withQuiet true) hs]
  refine .ok _ ⟨rfl, rfl, rfl, rfl, ⟨rfl, rfl⟩, rfl, ?_, ?_, ?_, ?_, ?_, ?_⟩
  all_goals
    intro _
    rfl

lemma alike_apply (hm : m.editor.program = some p) (budget : Nat) (source : Source) :
    Alike SameWork (apply budget source .nowhere (m.withQuiet false))
      (apply budget source .nowhere (m.withQuiet true)) := by
  rw [apply_eq (m := m.withQuiet false) hm, apply_eq (m := m.withQuiet true) hm]
  cases hs : source.lines m.store with
  | ok lines =>
    have hstart := alike_start (p := p) hs
    refine (Alike.bind hstart fun more _ _ h => ?_).mono fun _ _ h => h.sameWork
    cases more with
    | true => exact h.runFrom trivial (fun c _ => Frame.fits_all c) budget 0
    | false => exact .ok () h
  | error e =>
    rw [bind_error (start_error (m := m.withQuiet false) hs), bind_error (start_error (m := m.withQuiet true) hs)]
    exact .error e rfl

end

/-- A run and its quiet run end alike: after the same number of commands, with the same failure or none, and in
machines that differ only in what was shown. If they return, their cycles have tried the same commands, each in
such machines, and the quiet run has shown the same lines without those shown automatically. -/
theorem autoprint_only_shows {lines : List Text} {n n' : Nat} {q : Program} (hp : Script.program lines n = .ok q n')
    {mode : RegexpMode} {m : Machine} (hm : m.editor.program = some (q.prepare mode).value) (source : Source)
    (budget : Nat) :
    Alike SameWork (apply budget source .nowhere (m.withQuiet false))
      (apply budget source .nowhere (m.withQuiet true)) ∧
    ∀ m₁, apply budget source .nowhere (m.withQuiet false) = .ok () m₁ →
      ∃ laps laps' m₂, apply budget source .nowhere (m.withQuiet true) = .ok () m₂ ∧
        RunsOver (q.prepare mode).value source .nowhere (m.withQuiet false) laps false m₁ ∧
        RunsOver (q.prepare mode).value source .nowhere (m.withQuiet true) laps' false m₂ ∧
        List.Forall₂ (Lap.Like SameWork) laps laps' ∧
        m₁.shown = (laps.flatMap Lap.lines).map Line.text ∧
        m₂.shown = ((laps.flatMap Lap.lines).filter (!·.auto)).map Line.text := by
  refine ⟨alike_apply hm budget source, fun m₁ h => ?_⟩
  obtain ⟨laps, hloud, hle⟩ := exists_runsOver (m := m.withQuiet false) (Program.closed_prepare hp mode) hm h
  obtain ⟨ls, hs⟩ : ∃ ls, source.lines m.store = .ok ls := by
    cases hloud with
    | empty hs | laps hs _ => exact lines_of_start (m := m.withQuiet false) hs
  obtain ⟨laps', m₂, hquiet, hlikes, -⟩ := hloud.agree (fun c _ => Frame.fits_all c) trivial (alike_start hs)
  rw [triedIn_of_likes hlikes] at hle
  have hsame : List.Forall₂ (Lap.Like SameWork) laps laps' := hlikes.imp fun _ _ h => h.mono fun _ _ h => h.sameWork
  refine ⟨laps, laps', m₂, hquiet.returns hm hle, hloud, hquiet, hsame, ?_, ?_⟩
  · rw [hloud.adds]
    simp [shownOf, Machine.withQuiet]
  · rw [hquiet.adds, ← flatMap_eq_of_forall₂ hlikes fun _ _ h => h.lines]
    simp [shownOf, Machine.withQuiet]

theorem autoprint_of_sampleQueueing_only_shows :
    ∃ (n : Nat) (m m₁ m₂ : Machine) (laps laps' : List Lap),
      Script.program sampleQueueing 1 = .ok sampleQueueingProgram n ∧
      m.editor.program = some (sampleQueueingProgram.prepare ⟨false, false⟩).value ∧
      apply 4 (.text ['1', '\n', '2', '\n', '3', '\n']) .nowhere (m.withQuiet false) = .ok () m₁ ∧
      apply 4 (.text ['1', '\n', '2', '\n', '3', '\n']) .nowhere (m.withQuiet true) = .ok () m₂ ∧
      List.Forall₂ (Lap.Like SameWork) laps laps' ∧
      (laps.flatMap Lap.lines).map Line.text = [['1'], ['y'], ['2'], ['x']] ∧
      ((laps.flatMap Lap.lines).filter (!·.auto)).map Line.text = [['y'], ['x']] := by
  obtain ⟨n, hp⟩ : ∃ n, Script.program sampleQueueing 1 = .ok sampleQueueingProgram n :=
    Outcome.of_result? (by decide +kernel)
  let m : Machine := ⟨{ program := some (sampleQueueingProgram.prepare ⟨false, false⟩).value }, [], 1, false, #[], 0⟩
  let run (quiet : Bool) := apply 4 (.text ['1', '\n', '2', '\n', '3', '\n']) .nowhere (m.withQuiet quiet)
  obtain ⟨m₁, hloud⟩ : ∃ m₁, run false = .ok () m₁ := Outcome.of_result? (by decide +kernel)
  have hs₁ : (final (run false)).shown = [['1'], ['y'], ['2'], ['x']] := by decide +kernel
  have hs₂ : (final (run true)).shown = [['y'], ['x']] := by decide +kernel
  obtain ⟨-, hreturn⟩ := autoprint_only_shows hp (m := m) rfl (.text ['1', '\n', '2', '\n', '3', '\n']) 4
  obtain ⟨laps, laps', m₂, hquiet, -, -, hlikes, h₁, h₂⟩ := hreturn m₁ hloud
  rw [hloud] at hs₁
  rw [show run true = .ok () m₂ from hquiet] at hs₂
  exact ⟨n, m, m₁, m₂, laps, laps', hp, rfl, hloud, hquiet, hlikes, h₁.symm.trans hs₁, h₂.symm.trans hs₂⟩

end StreamEditor
