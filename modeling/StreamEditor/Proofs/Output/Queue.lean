import StreamEditor.Proofs.Output.Laps

/-! When queued texts are shown: at the end of the cycle that queued them, after all that its commands show. A
command that reads another line within the cycle does not show them. -/

namespace StreamEditor

open Edit Outcome

def Action.fetches : Action → Bool
  | .next | .nextAppend => true
  | _ => false

lemma queued_of_fetches {c : Command} (h : c.action.fetches = true) (m : Machine) : c.queued m = [] := by
  rw [Command.queued]
  cases ha : c.action with
  | append t | read file =>
    rw [ha] at h
    cases h
  | _ => rfl

lemma queue_of_fetches {i : Nat} {c : Command} {m m' : Machine} {flow : Flow} (hc : c.action.fetches = true)
    (h : c.attempt i m = .ok (true, flow) m') : m'.queue = m.queue := by
  obtain ⟨m₁, hs, hp⟩ := of_attempt h
  rw [(adds_perform i c flow m' hp).2, queued_of_fetches hc, List.append_nil]
  exact (kept_of_selected hs).2.1

/-- What a command has queued is shown at the end of its cycle: after all that the commands of the cycle show,
also those after it, and before all that later cycles show. The queue is empty when a cycle starts, but a command
that reads a line within the cycle leaves it as it is. -/
theorem queued_text_shown_at_cycle_end {p : Program} {source : Source} {destination : Destination} {m m' : Machine}
    {laps : List Lap} {more : Bool} (h : RunsOver p source destination m laps more m') (hq : m.queue = [])
    {before after : List Lap} {l : Lap} (hl : laps = before ++ l :: after) {ts ts' : List Try} {t : Try}
    (ht : l.tries = ts ++ t :: ts') {us us' : List Text} {u : Text} (hu : t.queued = us ++ u :: us') :
    m'.shown =
        before.flatMap (Lap.output m.editor.quiet) ++ (l.tries.flatMap fun t => shownOf m.editor.quiet t.lines) ++
          (if m.editor.quiet then [] else l.leftover) ++ ts.flatMap Try.queued ++ us ++
        u :: (us' ++ ts'.flatMap Try.queued ++ after.flatMap (Lap.output m.editor.quiet)) ∧
      l.start.queue = [] ∧
      ∀ (i : Nat) (c : Command) (m₁ m₂ : Machine) (flow : Flow), c.action.fetches = true →
        c.attempt i m₁ = .ok (true, flow) m₂ → m₂.queue = m₁.queue := by
  obtain ⟨-, hls⟩ := h.queue_eq_nil hq
  refine ⟨?_, hls l (by simp [hl]), fun i c m₁ m₂ flow hc ha => queue_of_fetches hc ha⟩
  have hqueued : l.queued = ts.flatMap Try.queued ++ us ++ u :: (us' ++ ts'.flatMap Try.queued) := by
    simp [Lap.queued, ht, hu]
  rw [h.shown_eq hq, hl, List.flatMap_append, List.flatMap_cons]
  simp [Lap.output, hqueued]

theorem sampleQueueing_shows_queued_at_cycle_end :
    ∃ (m m' : Machine) (l : Lap) (t : Try) (ts : List Try),
      RunsOver sampleQueueingProgram (.text ['1', '\n', '2', '\n', '3', '\n']) .nowhere m [l] false m' ∧
      m.queue = [] ∧ l.tries = t :: ts ∧ t.queued = [['x']] ∧ m'.shown = [['1'], ['y'], ['2']] ++ [['x']] := by
  let m : Machine := ⟨{ program := some sampleQueueingProgram }, [], 1, false, #[], 0⟩
  let first : Machine :=
    ⟨{ pattern := some ['1'], reader := .plain [['2', '\n'], ['3', '\n']], lineNumber := 1,
       program := some sampleQueueingProgram }, [], 1, false, #[], 0⟩
  have hstart : start sampleQueueingProgram (.text ['1', '\n', '2', '\n', '3', '\n']) .nowhere m = .ok true first := rfl
  let stop : Machine :=
    ⟨{ pattern := some ['2'], reader := .plain [['3', '\n']], lineNumber := 2, printed := #[['1'], ['y']],
       queue := [['x']], program := some sampleQueueingProgram }, [], 1, false, #[], 0⟩
  have hpass : Pass sampleQueueingProgram 0 first
      [⟨0, _, true, _⟩, ⟨1, _, true, _⟩, ⟨2, _, true, _⟩, ⟨3, _, true, _⟩] stop :=
    .next ⟨rfl, rfl, rfl, _, _, rfl, rfl, rfl⟩ (.next ⟨rfl, rfl, rfl, _, _, rfl, rfl, rfl⟩
      (.next ⟨rfl, rfl, rfl, _, _, rfl, rfl, rfl⟩ (.last ⟨rfl, rfl, rfl, _, _, rfl, rfl, rfl⟩)))
  obtain ⟨finish, hend⟩ : ∃ finish, endCycle ⟨4, some (.line 2), none, false, .quit, none, none⟩ true stop =
      .ok false finish := Outcome.of_result? (by decide +kernel)
  have hrun := RunsOver.laps hstart (.last (l := ⟨first, _, stop, finish⟩) ⟨hpass, _, rfl, hend⟩)
  have hshown := (queued_text_shown_at_cycle_end hrun rfl (show [_] = [] ++ _ :: [] from rfl)
    (show _ :: _ = [] ++ _ :: _ from rfl) (show _ = [] ++ ['x'] :: [] from rfl)).1
  exact ⟨m, _, _, _, _, hrun, rfl, rfl, rfl, hshown⟩

def ShowsBeforeReading (p : Program) (t : Text) (m : Machine) : Prop :=
  ∀ (i : Nat) (c : Command) (m₁ m₂ : Machine) (flow : Flow), Tried t m p i m₁ → p[i]? = some c →
    c.action.fetches = true → m₁.editor.reader.readLine.1.isSome = true →
    c.attempt i m₁ = .ok (true, flow) m₂ → m₂.queue = []

-- Here `n` reads the second line while `x` is still queued.
theorem sampleQueueing_reads_with_queue :
    ∃ n, Script.program sampleQueueing 1 = .ok sampleQueueingProgram n ∧
      ¬ ShowsBeforeReading sampleQueueingProgram ['1', '\n', '2', '\n', '3', '\n']
        ⟨{ program := some sampleQueueingProgram }, [], 1, false, #[], 0⟩ := by
  obtain ⟨n, hp⟩ : ∃ n, Script.program sampleQueueing 1 = .ok sampleQueueingProgram n :=
    Outcome.of_result? (by decide +kernel)
  refine ⟨n, hp, fun h => ?_⟩
  have hq := h 1 _ _ _ _ (.next (.first rfl rfl) rfl) rfl rfl rfl rfl
  cases hq

end StreamEditor
