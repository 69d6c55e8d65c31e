import StreamEditor.Proofs.Input.LastLine
import StreamEditor.Proofs.Runs.LineLocal

/-! Runs of one editor after each other. If a script neither uses the hold space nor recalls a regexp nor touches
files, then all that a later run takes from an earlier one are the ranges that were left open. -/

namespace StreamEditor

open Edit Outcome

def Action.isForgetful : Action → Bool
  | .get | .getAppend | .exchange | .read _ | .write _ => false
  | .substitute s => s.pattern ≠ some [] && !s.write
  | _ => true

def Command.isForgetful (c : Command) : Bool :=
  c.first.all (!·.isEmpty) && c.second.all (!·.isEmpty) && c.action.isForgetful

def runParts : List Part := [.lineNumber, .input, .lastLine, .ranges]

structure Command.Forgetful (c : Command) : Prop where
  uses : c.uses ⊆ runParts
  files : c.action.files = []

section

variable {mode : RegexpMode}

lemma Address.uses_subset {a : Address} (ha : a.isEmpty = false) (h : (a.prepare mode).failure = none) :
    (a.prepare mode).value.uses ⊆ runParts := by
  cases a with
  | line k => simp [prepare, Attempt.done, uses, runParts]
  | last => simp [prepare, Attempt.done, uses, runParts]
  | regexp source ignoreCase prepared =>
    rw [uses_prepare (by simpa [isNamed, isEmpty] using ha) h]
    exact List.nil_subset _

lemma Command.forgetful_prepareAction {c : Command} (hc : c.action.isForgetful = true)
    (h : (c.prepareAction mode).failure = none) :
    (c.prepareAction mode).value.action.uses ⊆ runParts ∧ (c.prepareAction mode).value.action.files = [] := by
  cases ha : c.action with
  | substitute s =>
    rw [ha] at hc
    simp only [Action.isForgetful, Bool.and_eq_true, Bool.not_eq_true', decide_eq_true_eq] at hc
    simp only [prepareAction, ha] at h ⊢
    obtain ⟨huses, hwrite⟩ := Substitution.uses_prepare hc.1 h
    rw [huses, Action.files, hwrite, hc.2]
    exact ⟨List.nil_subset _, rfl⟩
  | transliterate y =>
    simp only [prepareAction, ha]
    exact ⟨List.nil_subset _, rfl⟩
  | _ => simp_all [prepareAction, Attempt.done, Action.uses, Action.files, Action.isForgetful, runParts]

lemma Command.forgetful_prepare {c : Command} (hc : c.isForgetful = true) (h : (c.prepare mode).failure = none) :
    (c.prepare mode).value.Forgetful := by
  have haddress {o : Option Address} (ho : o.all (!·.isEmpty) = true)
      (h : ∀ a ∈ o, (a.prepare mode).failure = none) :
      (o.map fun a => (a.prepare mode).value).toList.flatMap Address.uses ⊆ runParts := by
    cases o with
    | none => exact List.nil_subset _
    | some a => simpa using Address.uses_subset (by simpa using ho) (h a rfl)
  simp only [isForgetful, Bool.and_eq_true] at hc
  obtain ⟨⟨hfirst, hsecond⟩, haction⟩ := hc
  obtain ⟨h₁, h₂, h₃, he⟩ := of_prepare h
  obtain ⟨huses, hfiles⟩ := forgetful_prepareAction haction h₃
  rw [he]
  refine ⟨?_, hfiles⟩
  have hranges (b : Bool) : (if b then [Part.ranges] else []) ⊆ runParts := by
    cases b <;> simp [runParts]
  exact List.append_subset.2 ⟨List.append_subset.2
    ⟨List.append_subset.2 ⟨haddress hfirst h₁, haddress hsecond h₂⟩, hranges _⟩, huses⟩

end

-- What is stored does not matter, since no file is touched, and nothing that is shown reaches one.
structure Unfiled (o o' : Outside) : Prop where
  quiet : o.quiet = o'.quiet
  printed : o.printed = o'.printed
  silent : o.output = .silent ∧ o'.output = .silent

lemma Unfiled.print {stops : Failure → Outside → Prop} {o o' : Outside} (h : Unfiled o o') (t : Text) :
    Showing Unfiled stops (o.print t) (o'.print t) := by
  rw [o.print_of_isFile (h.silent.1 ▸ rfl), o'.print_of_isFile (h.silent.2 ▸ rfl)]
  exact .same none { h with printed := congrArg (Array.push · t) h.printed }

def Coupling.rerun : Coupling where
  shared part := part ∈ runParts
  reader r r' := r = r'
  input := by
    rintro - r _ rfl
    exact ⟨rfl, rfl⟩
  lastLine := by
    rintro - r _ rfl
    rfl
  trials h := by simp [runParts] at h
  outside := Unfiled
  stops _ _ := False
  file _ := False
  print _ _ h t := h.print t
  autoprint _ _ h t := (h.print t).autoprint h h.quiet
  read _ _ _ _ h := h.elim
  write _ _ _ _ h := h.elim

section

variable {p p' : Program} {m n : Machine}

lemma Move.fixed_eq {i : Nat} (h : Move i m n) : n.fixed = m.fixed := by
  rcases h with h | h
  · obtain ⟨x, ranges, rfl⟩ := h.exists_eq
    rfl
  · cases h with
    | remember h =>
      cases h
      rfl
    | display h => cases h <;> rfl
    | _ => rfl

lemma Coupling.closes_rerun : Coupling.rerun.Closes := by
  intro o o' h
  rw [o.close_of_isFile (h.silent.1 ▸ rfl), o'.close_of_isFile (h.silent.2 ▸ rfl)]
  exact h

-- Only the queue and the ranges are left from before, and the settings.
lemma alike_rerun (hm : m.editor.program = some p) (hn : n.editor.program = some p') (hp : ∀ c ∈ p, c.Forgetful)
    (hpp : p.map Command.unnumbered = p'.map Command.unnumbered) (hqueue : m.queue = n.queue)
    (hquiet : m.editor.quiet = n.editor.quiet) (hranges : m.editor.ranges = n.editor.ranges) (y : Text) (budget : Nat) :
    Alike Coupling.rerun.Couples (apply budget (.text y) .nowhere m) (apply budget (.text y) .nowhere n) := by
  have hasks : p.asksLast = p'.asksLast := by
    rw [← p.asksLast_unnumbered, hpp, p'.asksLast_unnumbered]
  have hfits : ∀ c ∈ p, Coupling.rerun.Fits c := by
    refine fun c hc => ⟨(hp c hc).uses, fun path hpath => ?_⟩
    rw [(hp c hc).files] at hpath
    cases hpath
  have hmatches : Coupling.rerun.Matches p p' := ⟨hpp, by simp [Coupling.rerun, runParts]⟩
  have hstart (r : LineReader) : Coupling.rerun.Couples (m.opened r) (n.opened r) := by
    refine ⟨rfl, rfl, hqueue, ⟨hquiet, rfl, rfl, rfl⟩, rfl, ?_, fun _ => rfl, ?_, fun _ => hranges, ?_, ?_⟩
    all_goals simp [Coupling.rerun, runParts]
  rw [apply_eq hm, apply_eq hn, bind_ok (start_nowhere (p := p) (lines_text y m.store)),
    bind_ok (start_nowhere (lines_text y n.store)), hasks]
  split
  · refine Tracks.alike ?_ fun _ _ h => h
    exact (hstart _).runFrom (by simp [Coupling.rerun, runParts]) Coupling.closes_rerun hfits hmatches budget 0
  · exact .ok () (hstart _)

end

def SameShown (m n : Machine) : Prop := m.shown = n.shown

/-- An editor that has loaded a script of such commands and made a run, and an editor that has only loaded the script:
the next run of the first one shows the same lines and ends in the same way as a run of the second one does if it is
given the ranges that the first one has left open. So if none was left open the two runs do not differ. -/
theorem run_leaves_only_open_ranges {lines : List Text} {m₀ n₀ m n m₁ : Machine} {q : Program} {k : Nat}
    (hm : loadLines lines m₀ = .ok () m) (hn : loadLines lines n₀ = .ok () n) (heditor : n₀.editor = m₀.editor)
    (hdeferred : n₀.deferred = m₀.deferred) (hqueue : m₀.queue = [])
    (hp : Script.program (Script.pack lines) m₀.nextNumber = .ok q k) (hq : ∀ c ∈ q, c.isForgetful = true) {x : Text}
    {budget : Nat} (hx : apply budget (.text x) .nowhere m = .ok () m₁) (y : Text) (budget' : Nat) :
    Alike SameShown (apply budget' (.text y) .nowhere m₁)
      (apply budget' (.text y) .nowhere { n with editor := { n.editor with ranges := m₁.editor.ranges } }) ∧
    (m₁.editor.ranges = [] →
      Alike SameShown (apply budget' (.text y) .nowhere m₁) (apply budget' (.text y) .nowhere n)) := by
  obtain ⟨q', k', hp'⟩ := program_of_loadLines hn
  obtain ⟨hf, hm'⟩ := editor_of_loadLines hm hp
  obtain ⟨-, hn'⟩ := editor_of_loadLines hn hp'
  rw [heditor, hdeferred] at hn'
  have hprogram : m.editor.program = some _ := congrArg Editor.program hm'
  have hkept : m₁.fixed = m.fixed ∧ m₁.editor.quiet = m.editor.quiet := by
    have h := final_apply (P := fun m' => m'.fixed = m.fixed ∧ m'.editor.quiet = m.editor.quiet)
      (fun _ _ _ hmove h => ⟨hmove.fixed_eq.trans h.1, hmove.quiet_eq.trans h.2⟩) hprogram
      (lines_text x m.store) ⟨rfl, rfl⟩ .nowhere budget
    rwa [hx] at h
  obtain ⟨laps, hlaps, -⟩ := exists_runsOver (Program.closed_prepare hp _) hprogram hx
  have hqueue₁ : m₁.queue = n.queue := by
    rw [(hlaps.queue_eq_nil ((congrArg Editor.queue hm').trans hqueue)).1]
    exact ((congrArg Editor.queue hn').trans hqueue).symm
  have hquiet₁ : m₁.editor.quiet = n.editor.quiet := by rw [hkept.2, hm', hn']
  have hcarried := alike_rerun (n := { n with editor := { n.editor with ranges := m₁.editor.ranges } })
    ((congrArg (·.1) hkept.1).trans hprogram) (congrArg Editor.program hn')
    (Program.forall_prepare (fun _ => Command.forgetful_prepare) hq hf)
    (Program.prepared_unnumbered _ (Script.map_unnumbered_of_program hp' hp)) hqueue₁ hquiet₁ rfl y budget'
  have hshown : Alike SameShown _ _ := hcarried.mono fun _ _ h => congrArg Array.toList h.outside.printed
  refine ⟨hshown, fun hnone => ?_⟩
  have hranges : n.editor.ranges = [] := congrArg Editor.ranges hn'
  rwa [hnone, ← hranges] at hshown

def sampleRange : Text := ['2', ',', '3', 'p']

theorem run_leaves_only_open_ranges_sampleRange :
    ∃ m n m₁ m₂ n₂ : Machine, loadText sampleRange ⟨{}, [], 1, false, #[], 0⟩ = .ok () m ∧
      loadText sampleRange ⟨{}, [], 5, false, #[], 0⟩ = .ok () n ∧
      apply 3 (.text ['a', '\n', 'b', '\n', 'c', '\n']) .nowhere m = .ok () m₁ ∧ m₁.editor.ranges = [] ∧
      apply 2 (.text ['c', '\n', 'd', '\n']) .nowhere m₁ = .ok () m₂ ∧
      apply 2 (.text ['c', '\n', 'd', '\n']) .nowhere n = .ok () n₂ ∧
      m₂.shown = [['c'], ['d'], ['d']] ∧ n₂.shown = [['c'], ['d'], ['d']] := by
  let loaded (k : Nat) := loadText sampleRange ⟨{}, [], k, false, #[], 0⟩
  let first := apply 3 (.text ['a', '\n', 'b', '\n', 'c', '\n']) .nowhere (final (loaded 1))
  let second := apply 2 (.text ['c', '\n', 'd', '\n']) .nowhere (final first)
  obtain ⟨m, hm⟩ : ∃ m, loaded 1 = .ok () m := Outcome.of_result? (by decide +kernel)
  obtain ⟨n, hn⟩ : ∃ n, loaded 5 = .ok () n := Outcome.of_result? (by decide +kernel)
  obtain ⟨m₁, h₁⟩ : ∃ m₁, first = .ok () m₁ := Outcome.of_result? (by decide +kernel)
  obtain ⟨m₂, h₂⟩ : ∃ m₂, second = .ok () m₂ := Outcome.of_result? (by decide +kernel)
  have hranges : (final first).editor.ranges = [] := by decide +kernel
  have hshown : (final second).shown = [['c'], ['d'], ['d']] := by decide +kernel
  have hprogram : ∃ q, result? (Script.program (Script.pack (Text.splitLines sampleRange)) 1) = some q ∧
      ∀ c ∈ q, c.isForgetful = true := by
    have h : (result? (Script.program (Script.pack (Text.splitLines sampleRange)) 1)).any
        (List.all · Command.isForgetful) = true := by
      decide +kernel
    simpa [Option.any_eq_true] using h
  obtain ⟨q, hp, hq⟩ := hprogram
  obtain ⟨k, hp⟩ := Outcome.of_result? hp
  rw [h₁] at hranges
  rw [h₂] at hshown
  simp only [second, h₁, final] at h₂
  simp only [first, hm, final] at h₁
  obtain ⟨-, hfresh⟩ :=
    run_leaves_only_open_ranges hm hn rfl rfl rfl hp hq h₁ ['c', '\n', 'd', '\n'] 2
  obtain ⟨n₂, hn₂, hsame⟩ := (hfresh hranges).of_ok h₂
  exact ⟨m, n, m₁, m₂, n₂, hm, hn, h₁, hranges, h₂, hn₂, hshown, hsame ▸ hshown⟩

theorem open_range_goes_on_in_next_run :
    ∃ m m₁ m₂ m₃ : Machine, loadText sampleRange ⟨{}, [], 1, false, #[], 0⟩ = .ok () m ∧
      apply 2 (.text ['a', '\n', 'b', '\n']) .nowhere m = .ok () m₁ ∧
      apply 1 (.text ['c', '\n']) .nowhere m₁ = .ok () m₂ ∧ m₂.shown = [['c'], ['c']] ∧
      apply 1 (.text ['c', '\n']) .nowhere m = .ok () m₃ ∧ m₃.shown = [['c']] := by
  let loaded := loadText sampleRange ⟨{}, [], 1, false, #[], 0⟩
  let first := apply 2 (.text ['a', '\n', 'b', '\n']) .nowhere (final loaded)
  let run (m : Machine) := apply 1 (.text ['c', '\n']) .nowhere m
  obtain ⟨m, hm⟩ : ∃ m, loaded = .ok () m := Outcome.of_result? (by decide +kernel)
  obtain ⟨m₁, h₁⟩ : ∃ m₁, first = .ok () m₁ := Outcome.of_result? (by decide +kernel)
  obtain ⟨m₂, h₂⟩ : ∃ m₂, run (final first) = .ok () m₂ := Outcome.of_result? (by decide +kernel)
  obtain ⟨m₃, h₃⟩ : ∃ m₃, run (final loaded) = .ok () m₃ := Outcome.of_result? (by decide +kernel)
  have hshown₂ : (final (run (final first))).shown = [['c'], ['c']] := by decide +kernel
  have hshown₃ : (final (run (final loaded))).shown = [['c']] := by decide +kernel
  rw [h₂] at hshown₂
  rw [h₃] at hshown₃
  simp only [run, h₁, hm, final] at h₂ h₃
  simp only [first, hm, final] at h₁
  exact ⟨m, m₁, m₂, m₃, hm, h₁, h₂, hshown₂, h₃, hshown₃⟩

end StreamEditor
