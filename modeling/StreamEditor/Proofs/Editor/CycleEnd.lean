import StreamEditor.Proofs.Editor.Work
import StreamEditor.Script.Link

/-! Ends of cycles. After any command but one that deletes the first line a cycle ends in the same way;
after that one the pattern space is kept for the next cycle, even if the command was not selected. -/

namespace StreamEditor

open Edit Outcome

inductive Cycle (p : Program) : Nat → Machine → List (Command × Bool) → Machine → Prop
  | last {i : Nat} {c : Command} {selected : Bool} {flow : Flow} {m m₁ m₂ : Machine} :
      p[i]? = some c → c.attempt i m = .ok (selected, flow) m₁ → record c selected m₁ = .ok () m₂ →
      c.follow flow = none → Cycle p i m [(c, selected)] m₂
  | next {i j : Nat} {c : Command} {selected : Bool} {flow : Flow} {m m₁ m₂ m₃ : Machine}
      {tries : List (Command × Bool)} :
      p[i]? = some c → c.attempt i m = .ok (selected, flow) m₁ → record c selected m₁ = .ok () m₂ →
      c.follow flow = some j → Cycle p j m₂ tries m₃ → Cycle p i m ((c, selected) :: tries) m₃

def Editor.leftover (e : Editor) : List Text := (if e.quiet then [] else e.pattern.toList) ++ e.queue

abbrev clearQueue : Edit Unit := update fun e => { e with queue := [] }

/-- After so many commands tried from `m` on, the cycle ends at `m₁`: the pattern space is shown if there is
one, then what is queued, and unless the run is quit it goes on with the next line, as long as there is one. -/
def EndsPlainly (p : Program) (tried : Nat) (quits : Bool) (m m₁ : Machine) : Prop :=
  ∀ budget, runFrom p (tried + budget) 0 m = (do
    m₁.editor.leftover.forM print
    clearQueue
    if quits then return
    let line ← readLine
    setPattern line
    closeOutput
    if line.isSome then runFrom p budget 0) m₁

def KeepsLine (p : Program) (tried : Nat) (m m₁ : Machine) : Prop :=
  ∀ budget, runFrom p (tried + budget) 0 m = (do
    m₁.editor.queue.forM print
    clearQueue
    closeOutput
    if m₁.editor.pattern.isSome then runFrom p budget 0) m₁

lemma turn_eq {p : Program} {i : Nat} {c : Command} {selected : Bool} {flow : Flow} {m m₁ m₂ : Machine}
    (hc : p[i]? = some c) (ha : c.attempt i m = .ok (selected, flow) m₁)
    (hr : record c selected m₁ = .ok () m₂) :
    turn p i m = (match c.follow flow with
      | some j => pure (some j)
      | none => endCycle c selected >>= fun more => if more then pure (some 0) else pure none :
        Edit (Option Nat)) m₂ := by
  rw [turn, hc]
  dsimp only
  rw [bind_ok ha]
  refine (bind_ok hr).trans ?_
  cases c.follow flow <;> rfl

-- The budget is generalised: what the cycle does not use is left for the rest of the run.
lemma runFrom_cycle {p : Program} {i : Nat} {m m₁ : Machine} {tries : List (Command × Bool)}
    (h : Cycle p i m tries m₁) {last : Command} {selected : Bool}
    (hl : tries.getLast? = some (last, selected)) (budget : Nat) :
    runFrom p (tries.length + budget) i m = (do if ← endCycle last selected then runFrom p budget 0) m₁ := by
  induction h with
  | last hc ha hr hf =>
    cases hl
    have ht := turn_eq hc ha hr
    rw [hf] at ht
    rw [List.length_singleton, Nat.add_comm, runFrom, bind_of_eq ht]
    simp only [bind_assoc]
    apply Outcome.bind_congr
    intro more m₃ _
    cases more <;> rfl
  | next hc ha hr hf hn ih =>
    have ht := turn_eq hc ha hr
    rw [hf] at ht
    rw [List.length_cons, Nat.add_right_comm, runFrom, bind_ok ht]
    apply ih
    cases hn <;> exact hl

section

variable {last : Command} (m : Machine)

lemma showCycle_of_ne (h : last.action ≠ .deleteFirst) :
    showCycle last m = (do
      m.editor.leftover.forM print
      clearQueue) m := by
  rw [showCycle, bind_ok (show editor m = .ok m.editor m from rfl), Editor.leftover, decide_eq_true h]
  cases hq : m.editor.quiet with
  | true => rfl
  | false =>
    cases hp : m.editor.pattern with
    | none => rfl
    | some t =>
      change (print t >>= fun _ => flushQueue) m = ((print t >>= fun _ => m.editor.queue.forM print) >>= _) m
      rw [bind_assoc]
      apply Outcome.bind_congr
      intro _ m₁ hm
      have hq : m₁.editor.queue = m.editor.queue :=
        keeps_shown (within_print t) (g := Editor.queue) (fun _ _ _ => rfl) m _ m₁ hm
      rw [← hq]
      rfl

lemma showCycle_deleteFirst (h : last.action = .deleteFirst) :
    showCycle last m = (do
      m.editor.queue.forM print
      clearQueue) m := by
  rw [showCycle, bind_ok (show editor m = .ok m.editor m from rfl), decide_eq_false (by simpa using h),
    Bool.and_false]
  rfl

lemma nextCycle_of_ne (h : last.action ≠ .deleteFirst) :
    nextCycle last m = (do
      let line ← readLine
      setPattern line
      closeOutput
      return line.isSome) m := by
  rw [nextCycle, if_pos h]
  apply Outcome.bind_congr
  intro line m₁ _
  apply Outcome.bind_congr
  intro _ m₂ h₂
  apply Outcome.bind_congr
  intro _ m₃ h₃
  have hc := keeps_shown within_closeOutput (g := Editor.pattern) (fun _ _ _ => rfl) m₂ _ m₃ h₃
  have hp : m₃.editor.pattern = line := by
    cases h₂
    exact hc
  change EStateM.Result.ok m₃.editor.pattern.isSome m₃ = _
  rw [hp]
  rfl

variable (selected : Bool) (rest : Edit Unit)

lemma endCycle_of_ne (h : last.action ≠ .deleteFirst) :
    (do if ← endCycle last selected then rest) m = (do
      m.editor.leftover.forM print
      clearQueue
      if last.action = Action.quit && selected then return
      let line ← readLine
      setPattern line
      closeOutput
      if line.isSome then rest) m := by
  rw [endCycle]
  simp only [bind_assoc]
  rw [bind_of_eq (showCycle_of_ne m h)]
  simp only [bind_assoc]
  apply Outcome.bind_congr
  intro _ m₁ _
  apply Outcome.bind_congr
  intro _ m₂ _
  split
  · rfl
  · rw [bind_of_eq (nextCycle_of_ne m₂ h)]
    simp

lemma endCycle_deleteFirst (h : last.action = .deleteFirst) :
    (do if ← endCycle last selected then rest) m = (do
      m.editor.queue.forM print
      clearQueue
      closeOutput
      if m.editor.pattern.isSome then rest) m := by
  rw [endCycle]
  simp only [bind_assoc]
  rw [bind_of_eq (showCycle_deleteFirst m h)]
  simp only [bind_assoc]
  apply Outcome.bind_congr
  intro _ m₁ h₁
  apply Outcome.bind_congr
  intro _ m₂ h₂
  have hq : ¬(decide (last.action = .quit) && selected) = true := by simp [h]
  rw [if_neg hq, nextCycle, if_neg (by simpa using h)]
  simp only [bind_assoc]
  apply Outcome.bind_congr
  intro _ m₃ h₃
  have hp₁ := keeps_shown (.forM within_print _) (g := Editor.pattern) (fun _ _ _ => rfl) m _ m₁ h₁
  have hp₃ := keeps_shown within_closeOutput (g := Editor.pattern) (fun _ _ _ => rfl) m₂ _ m₃ h₃
  have hp : m₃.editor.pattern = m.editor.pattern := by
    cases h₂
    exact hp₃.trans hp₁
  rw [← hp]
  rfl

end

/-- Whether or not it was selected, the last command of a cycle changes how the cycle ends only if it
deletes the first line, or quits and was selected. -/
theorem cycle_end_follows_last {p : Program} {m m₁ : Machine} {tries : List (Command × Bool)}
    (h : Cycle p 0 m tries m₁) {last : Command} {selected : Bool}
    (hl : tries.getLast? = some (last, selected)) :
    (last.action ≠ .deleteFirst → EndsPlainly p tries.length (last.action = .quit && selected) m m₁) ∧
      (last.action = .deleteFirst → KeepsLine p tries.length m m₁) := by
  refine ⟨fun ha budget => ?_, fun ha budget => ?_⟩
  · rw [runFrom_cycle h hl, endCycle_of_ne m₁ selected _ ha]
  · rw [runFrom_cycle h hl, endCycle_deleteFirst m₁ selected _ ha]

def sampleStart (p : Program) (t : Text) : Machine :=
  final (start p (.text t) .nowhere { editor := { program := some p }, store := [] })

def sampleQuit : Program :=
  [⟨1, some (.line 2), none, false, .deleteFirst, some 1, none⟩, ⟨2, some (.line 2), none, false, .quit, none, none⟩]

theorem cycle_end_sampleQuit :
    result? (Script.program [['2', 'D', ';', '2', 'q']] 1) = some sampleQuit ∧
      ∃ m tries last, Cycle sampleQuit 0 (sampleStart sampleQuit ['a', '\n', 'b', '\n']) tries m ∧
        tries.getLast? = some (last, false) ∧ last.action = .quit ∧
        EndsPlainly sampleQuit 2 false (sampleStart sampleQuit ['a', '\n', 'b', '\n']) m := by
  have h : Cycle sampleQuit 0 (sampleStart sampleQuit ['a', '\n', 'b', '\n'])
      [(⟨1, some (.line 2), none, false, .deleteFirst, some 1, none⟩, false),
        (⟨2, some (.line 2), none, false, .quit, none, none⟩, false)]
      (sampleStart sampleQuit ['a', '\n', 'b', '\n']) := .next rfl rfl rfl rfl (.last rfl rfl rfl rfl)
  exact ⟨by decide +kernel, _, _, _, h, rfl, rfl, (cycle_end_follows_last h rfl).1 nofun⟩

def sampleDelete : Program := [⟨1, some (.line 2), none, false, .deleteFirst, none, none⟩]

theorem unselected_deleteFirst_keeps_line :
    result? (Script.program [['2', 'D']] 1) = some sampleDelete ∧
      ∃ m last, Cycle sampleDelete 0 (sampleStart sampleDelete ['a', '\n']) [(last, false)] m ∧
        ¬EndsPlainly sampleDelete 1 false (sampleStart sampleDelete ['a', '\n']) m := by
  refine ⟨by decide +kernel, sampleStart sampleDelete ['a', '\n'], _, .last rfl rfl rfl rfl, fun h => ?_⟩
  -- The run should end after its only line, but it goes on and is stopped by its budget.
  have hr := congrArg result? (h 0)
  cases hr

end StreamEditor
