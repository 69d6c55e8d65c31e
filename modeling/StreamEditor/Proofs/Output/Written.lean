import StreamEditor.Proofs.Editor.Files
import StreamEditor.Proofs.Runs.Autoprint
import StreamEditor.Proofs.Runs.Repeat
import StreamEditor.Proofs.Store

namespace StreamEditor

open Edit Outcome

def utf8Lines (lines : List Text) : Bytes := lines.flatMap fun line => Text.toUtf8 (line ++ ['\n'])

@[simp] lemma utf8Lines_append (lines lines' : List Text) :
    utf8Lines (lines ++ lines') = utf8Lines lines ++ utf8Lines lines' := List.flatMap_append

namespace Store

def leads (path name : Text) : Bool := (locate path).toOption = some name

lemma leads_of_ok {path other name : Text} (h : locate path = .ok other) : leads path name = decide (other = name) := by
  simp [leads, h, Except.toOption]

/-- Lines are added to a file; without any the file is what it was, and may be missing. -/
structure Gains (name : Text) (lines : List Text) (s s' : Store) : Prop where
  grown : ∀ bytes, s.lookup name = some bytes → s'.lookup name = some (bytes ++ utf8Lines lines)
  same : lines = [] → s'.lookup name = s.lookup name

namespace Gains

variable {name : Text} {lines lines' : List Text} {s s₁ s' : Store}

lemma of_lookup_eq (h : s'.lookup name = s.lookup name) : Gains name [] s s' :=
  ⟨fun bytes hs => by rw [h, hs]; simp [utf8Lines], fun _ => h⟩

lemma of_eq (h : s' = s) : Gains name [] s s' := of_lookup_eq (h ▸ rfl)

lemma trans (h : Gains name lines s s₁) (h' : Gains name lines' s₁ s') : Gains name (lines ++ lines') s s' where
  grown bytes hs := by
    rw [h'.grown _ (h.grown bytes hs), utf8Lines_append, List.append_assoc]
  same hnil := by
    obtain ⟨hl, hl'⟩ := List.append_eq_nil_iff.1 hnil
    rw [h'.same hl', h.same hl]

end Gains

lemma gains_append {path line : Text} {s s' : Store} (h : s.append path (Text.toUtf8 (line ++ ['\n'])) = .ok s')
    (name : Text) : Gains name (if leads path name then [line] else []) s s' := by
  obtain ⟨other, hl, h⟩ := bind_eq_ok.1 h
  cases h
  rw [leads_of_ok hl]
  by_cases hname : other = name
  · subst hname
    rw [if_pos (decide_eq_true rfl)]
    refine ⟨fun bytes hs => ?_, fun hnil => by cases hnil⟩
    simp [lookup_put_self, hs, utf8Lines]
  · rw [if_neg (by simpa using hname)]
    exact .of_lookup_eq (lookup_put_of_ne (Ne.symm hname) _ _)

end Store

namespace Command

def writesTo (name : Text) (c : Command) : Bool :=
  match c.action with
  | .write path => Store.leads path name
  | .substitute s => s.write && Store.leads s.file name
  | _ => false

def written (c : Command) (m : Machine) : List Text :=
  match c.action with
  | .write _ => [m.space]
  | .substitute s => if s.write then (s.made? m).toList else []
  | _ => []

def writtenTo (name : Text) (c : Command) (m : Machine) : List Text := if c.writesTo name then c.written m else []

end Command

def Try.writtenTo (name : Text) (t : Try) : List Text := if t.selected then t.command.writtenTo name t.state else []

def Lap.writtenTo (name : Text) (l : Lap) : List Text := l.tries.flatMap (Try.writtenTo name)

/-- Runs over texts one after the other, each of which returns, with all their cycles. -/
inductive RunsInTurn (p : Program) (m : Machine) : List Lap → Machine → Prop
  | none : RunsInTurn p m [] m
  | next {laps laps' : List Lap} {m₁ m' : Machine} {t : Text} : RunsInTurn p m laps m₁ →
      RunsOver p (.text t) .nowhere m₁ laps' false m' → RunsInTurn p m (laps ++ laps') m'

section

variable {m m' : Machine} (name : Text)

lemma gains_writeFile {path line : Text} (h : writeFile path line m = .ok () m') :
    Store.Gains name (if Store.leads path name then [line] else []) m.store m'.store := by
  obtain ⟨_, m₁, hg, h⟩ := Outcome.bind_eq_ok.1 h
  cases hg
  obtain ⟨s, m₂, hl, hw⟩ := Outcome.bind_eq_ok.1 h
  obtain ⟨hs, rfl⟩ := lift_eq_ok hl
  cases hw
  exact Store.gains_append hs name

lemma gains_replace {s : Substitution} {x : Regexp} (h : s.replace x m = .ok () m') :
    Store.Gains name
      (if s.write && Store.leads s.file name then (x.substitute? s.replacement s.count m.space).toOption.join.toList
        else []) m.store m'.store := by
  obtain ⟨_, m₁, hg, h⟩ := Outcome.bind_eq_ok.1 h
  cases hg
  obtain ⟨r, m₁, hr, h⟩ := Outcome.bind_eq_ok.1 h
  obtain ⟨hr, hm⟩ := lift_eq_ok hr
  rw [hm] at h
  rw [hr]
  cases r with
  | none =>
    cases h
    simpa [Except.toOption] using .of_eq rfl
  | some t =>
    obtain ⟨_, m₂, hu, h⟩ := Outcome.bind_eq_ok.1 h
    cases hu
    have hwrite (m₁ : Machine) (h : (if s.write then writeFile s.file t else pure () : Edit Unit) m₁ = .ok () m') :
        Store.Gains name (if s.write && Store.leads s.file name then [t] else []) m₁.store m'.store := by
      cases hs : s.write with
      | true =>
        rw [hs] at h
        exact gains_writeFile name h
      | false =>
        rw [hs] at h
        cases h
        exact .of_eq rfl
    change Store.Gains name (if s.write && Store.leads s.file name then [t] else []) _ _
    cases hp : s.print with
    | true =>
      rw [hp] at h
      obtain ⟨_, m₃, hprint, h⟩ := Outcome.bind_eq_ok.1 h
      have hstore := keeps_store_print t _ _ m₃ hprint
      rw [← show m₃.store = m.store from hstore]
      exact hwrite _ h
    | false =>
      rw [hp] at h
      exact hwrite { m with editor := { m.editor with pattern := some t, substituted := true } } h

lemma gains_substitution {s : Substitution} (h : s.execute m = .ok () m') :
    Store.Gains name (if s.write && Store.leads s.file name then (s.made? m).toList else []) m.store m'.store := by
  rw [s.execute_eq] at h
  obtain ⟨x, m₁, hx, h⟩ := Outcome.bind_eq_ok.1 h
  obtain ⟨hr, last, rfl⟩ := of_choose hx
  rw [Substitution.made?, hr]
  exact gains_replace (m := { m with editor := { m.editor with lastRegexp := last } }) name h

-- Only two actions write, and a substitution does only if it is told to.
lemma gains_perform {c : Command} {i : Nat} {flow : Flow} (h : c.perform i m = .ok flow m') :
    Store.Gains name (c.writtenTo name m) m.store m'.store := by
  cases hw : c.action.writes with
  | false =>
    have hnone : c.written m = [] := by
      rw [Command.written]
      cases ha : c.action with
      | write path =>
        rw [ha] at hw
        cases hw
      | substitute s =>
        rw [ha] at hw
        exact if_neg (by simpa [Action.writes] using hw)
      | _ => rfl
    rw [Command.writtenTo, hnone, ite_self]
    exact .of_eq (keeps_store_perform hw i m flow m' h)
  | true =>
    rw [Command.perform] at h
    rw [Command.writtenTo, Command.writesTo, Command.written]
    cases ha : c.action with
    | write path =>
      rw [ha] at h
      obtain ⟨_, m₁, hg, h⟩ := Outcome.bind_eq_ok.1 h
      cases hg
      obtain ⟨_, m₁, hwrite, h⟩ := Outcome.bind_eq_ok.1 h
      cases h
      exact gains_writeFile name hwrite
    | substitute s =>
      rw [ha] at h hw
      obtain ⟨_, m₁, hs, h⟩ := Outcome.bind_eq_ok.1 h
      cases h
      have hgains := gains_substitution name hs
      dsimp only
      rwa [if_pos (show s.write = true from hw)]
    | _ =>
      rw [ha] at hw
      cases hw

end

section

variable {p : Program} {i : Nat} {m m' : Machine} (name : Text)

lemma Trying.gains {t : Try} {next : Option Nat} (h : Trying p i m t next m') :
    Store.Gains name (t.writtenTo name) m.store m'.store := by
  obtain ⟨rfl, -, hs, flow, m₁, ha, hr, -⟩ := h
  obtain ⟨m₂, hs', hperform⟩ := of_attempt ha
  obtain rfl : t.state = m₂ := by
    rw [hs] at hs'
    cases hs'
    rfl
  rw [(kept_of_record hr).2, ← (kept_of_selected hs).2.2.2, Try.writtenTo]
  cases hsel : t.selected with
  | true =>
    rw [hsel] at hperform
    exact gains_perform name hperform
  | false =>
    rw [hsel] at hperform
    cases hperform
    exact .of_eq rfl

lemma Pass.gains {ts : List Try} (h : Pass p i m ts m') :
    Store.Gains name (ts.flatMap (Try.writtenTo name)) m.store m'.store := by
  induction h with
  | last ht => simpa using ht.gains name
  | next ht _ ih => exact (ht.gains name).trans ih

lemma Machine.agree_self (h : m.editor.output.isFile = false) : Frame.all.Agree m m :=
  ⟨rfl, rfl, rfl, rfl, ⟨h, h⟩, rfl, fun _ => rfl, fun _ => rfl, fun _ => rfl, fun _ => rfl, fun _ => rfl, fun _ => rfl⟩

lemma kept_of_endCycle {last : Command} {selected more : Bool} (h : endCycle last selected m = .ok more m')
    (hm : m.editor.output.isFile = false) : m'.editor.output.isFile = false ∧ m'.store = m.store := by
  obtain ⟨x, hx, hshow⟩ := showCycle_eq last m
  obtain ⟨printed, hx⟩ := hx m hm
  rw [bind_ok hx] at hshow
  rw [endCycle, bind_ok (hshow.trans rfl)] at h
  split at h
  · cases h
    exact ⟨hm, rfl⟩
  · rw [nextCycle_eq] at h
    obtain ⟨m₁, hadvance, houtside⟩ := advance_eq_ok last
      { m with editor := { m.editor with printed, queue := [] } }
    simp only [Outside.mk.injEq] at houtside
    obtain ⟨-, -, houtput, hstore⟩ := houtside
    rw [bind_ok hadvance, bind_ok (closeOutput_eq (houtput ▸ hm))] at h
    cases h
    exact ⟨houtput ▸ hm, hstore⟩

lemma Lap.Of.gains {l : Lap} {more : Bool} (h : l.Of p more) (hm : l.start.editor.output.isFile = false) :
    Store.Gains name (l.writtenTo name) l.start.store l.finish.store ∧ l.finish.editor.output.isFile = false := by
  obtain ⟨_, _, _, -, -, he, hstop, -⟩ := h.agree (fun c _ => Frame.fits_all c) (Machine.agree_self hm)
  obtain ⟨houtput, hstore⟩ := kept_of_endCycle he hstop.output.1
  rw [hstore]
  exact ⟨h.pass.gains name, houtput⟩

lemma Laps.gains {laps : List Lap} {more : Bool} (h : Laps p m laps more m') (hm : m.editor.output.isFile = false) :
    Store.Gains name (laps.flatMap (Lap.writtenTo name)) m.store m'.store := by
  induction h with
  | none m => exact .of_eq rfl
  | last hl => simpa using (hl.gains name hm).1
  | next hl _ ih =>
    obtain ⟨hgains, houtput⟩ := hl.gains name hm
    exact hgains.trans (ih houtput)

lemma RunsOver.gains {t : Text} {laps : List Lap} {more : Bool} (h : RunsOver p (.text t) .nowhere m laps more m') :
    Store.Gains name (laps.flatMap (Lap.writtenTo name)) m.store m'.store := by
  have hopen {more : Bool} {m₁ : Machine} (hs : start p (.text t) .nowhere m = .ok more m₁) :
      m₁.store = m.store ∧ m₁.editor.output.isFile = false := by
    rw [start_nowhere (lines_text t m.store)] at hs
    cases hs
    exact ⟨rfl, rfl⟩
  cases h with
  | empty hs => exact .of_eq (hopen hs).1
  | laps hs hl =>
    obtain ⟨hstore, houtput⟩ := hopen hs
    rw [← hstore]
    exact hl.gains name houtput

lemma RunsInTurn.gains {laps : List Lap} (h : RunsInTurn p m laps m') :
    Store.Gains name (laps.flatMap (Lap.writtenTo name)) m.store m'.store := by
  induction h with
  | none => exact .of_eq rfl
  | next _ hrun ih =>
    rw [List.flatMap_append]
    exact ih.trans (hrun.gains name)

lemma RunsInTurn.program_eq {laps : List Lap} (h : RunsInTurn p m laps m') (hm : m.editor.program = some p) :
    m'.editor.program = some p := by
  induction h with
  | none => exact hm
  | @next laps laps' m₁ m' t _ hrun ih =>
    have hfixed := final_apply (P := fun m' => m'.fixed = m₁.fixed) (fun _ _ _ hmove h => hmove.fixed_eq.trans h) ih
      (lines_text t m₁.store) rfl .nowhere (triedIn laps')
    rw [hrun.returns ih (Nat.le_refl _)] at hfixed
    exact (congrArg (·.1) hfixed).trans ih

end

section

variable {p : Program} {i : Nat} {m m' : Machine} {name : Text} (hp : ∀ c ∈ p, c.writesTo name = false)
include hp

lemma Pass.writtenTo_eq_nil {ts : List Try} (h : Pass p i m ts m') : ts.flatMap (Try.writtenTo name) = [] := by
  have hnone (t : Try) (hc : t.command ∈ p) : t.writtenTo name = [] := by
    simp [Try.writtenTo, Command.writtenTo, hp _ hc]
  induction h with
  | last ht => simpa using hnone _ (List.mem_of_getElem? ht.command)
  | next ht _ ih => rw [List.flatMap_cons, hnone _ (List.mem_of_getElem? ht.command), ih, List.append_nil]

lemma Laps.writtenTo_eq_nil {laps : List Lap} {more : Bool} (h : Laps p m laps more m') :
    laps.flatMap (Lap.writtenTo name) = [] := by
  induction h with
  | none m => rfl
  | last hl => simpa [Lap.writtenTo] using hl.pass.writtenTo_eq_nil hp
  | next hl _ ih => rw [List.flatMap_cons, Lap.writtenTo, hl.pass.writtenTo_eq_nil hp, ih, List.append_nil]

lemma RunsInTurn.writtenTo_eq_nil {laps : List Lap} (h : RunsInTurn p m laps m') :
    laps.flatMap (Lap.writtenTo name) = [] := by
  induction h with
  | none => rfl
  | next _ hrun ih =>
    rw [List.flatMap_append, ih, List.nil_append]
    cases hrun with
    | empty _ => rfl
    | laps _ hl => exact hl.writtenTo_eq_nil hp

end

section

variable {name : Text}

def makeFile (a : Attempt Store) (file : Text) : Attempt Store :=
  a.andThen (fun s =>
    match s.create file with
    | .ok s => .done s
    | .error e => ⟨s, some (if e.isFileSystem then .fault (.unopenable file) else e)⟩) id

lemma createFiles_eq (p : Program) (s : Store) :
    p.createFiles s = (p.filterMap Command.outputFile?).foldl makeFile (.done s) := rfl

lemma makeFile_of_ok {file other : Text} (h : Store.locate file = .ok other) (s : Store) :
    makeFile (.done s) file = .done (s.put other []) := by
  simp only [makeFile, Attempt.andThen, Attempt.done, Store.create, h]
  rfl

lemma makeFile_of_error {file : Text} {e : Failure} (h : Store.locate file = .error e) (s : Store) :
    (makeFile (.done s) file).failure.isSome = true := by
  simp only [makeFile, Attempt.andThen, Attempt.done, Store.create, h]
  rfl

lemma foldl_makeFile_of_failure (files : List Text) {a : Attempt Store} (h : a.failure.isSome = true) :
    (files.foldl makeFile a).failure.isSome = true := by
  induction files generalizing a with
  | nil => exact h
  | cons file files ih =>
    obtain ⟨e, he⟩ := Option.isSome_iff_exists.1 h
    apply ih
    simp [makeFile, Attempt.andThen, he]

lemma lookup_foldl_makeFile {files : List Text} {s : Store} (h : (files.foldl makeFile (.done s)).failure = none) :
    (files.foldl makeFile (.done s)).value.lookup name =
      if files.any (Store.leads · name) then some [] else s.lookup name := by
  induction files generalizing s with
  | nil => rfl
  | cons file files ih =>
    rw [List.foldl_cons] at h ⊢
    cases hl : Store.locate file with
    | error e =>
      have hfailed := foldl_makeFile_of_failure files (makeFile_of_error hl s)
      rw [h] at hfailed
      cases hfailed
    | ok other =>
      rw [makeFile_of_ok hl] at h ⊢
      rw [ih h, List.any_cons, Store.leads_of_ok hl]
      by_cases hname : other = name
      · simp [hname, Store.lookup_put_self]
      · simp [hname, Store.lookup_put_of_ne (Ne.symm hname)]

lemma Command.any_outputFile? (c : Command) : c.outputFile?.any (Store.leads · name) = c.writesTo name := by
  have hnamed (file : Text) :
      (if file.isEmpty then none else some file : Option Text).any (Store.leads · name) = Store.leads file name := by
    cases file <;> rfl
  rw [outputFile?, writesTo]
  cases c.action with
  | write file => exact hnamed file
  | substitute s =>
    dsimp only
    cases s.write with
    | true => exact hnamed s.file
    | false => rfl
  | _ => rfl

lemma lookup_createFiles {p : Program} {s : Store} (h : (p.createFiles s).failure = none) (name : Text) :
    (p.createFiles s).value.lookup name = if p.any (Command.writesTo name) then some [] else s.lookup name := by
  rw [createFiles_eq] at h ⊢
  have hany : (p.filterMap Command.outputFile?).any (Store.leads · name) = p.any (Command.writesTo name) := by
    rw [List.any_filterMap]
    exact congrArg (List.any p) (funext fun c => c.any_outputFile?)
  rw [lookup_foldl_makeFile h, hany]

end

section

variable {lines : List Text} {m m₁ : Machine} {q : Program} {e : Failure} {n : Nat}

lemma install_of_unread (h : Script.program lines m.nextNumber = .error e n) :
    install lines m = .error e { m with nextNumber := n } := by
  have hread : readProgram lines m = .error e { m with nextNumber := n } := by
    rw [readProgram, h]
  rw [install, bind_error hread]

lemma settle_of_failure {α : Type} {a : Attempt α} {keep : α → Edit Unit} (hf : a.failure = some e)
    (hk : keep a.value m = .ok () m₁) : settle a keep m = .error e m₁ := by
  rw [settle, bind_ok hk, hf]
  rfl

lemma install_of_unprepared (hp : Script.program lines m.nextNumber = .ok q n)
    (hf : (q.prepare ⟨m.editor.extended, m.deferred⟩).failure = some e) :
    ∃ m', install lines m = .error e m' ∧ m'.store = m.store := by
  have hget (m : Machine) : (get : Edit Machine) m = .ok m m := rfl
  rw [install, bind_ok (readProgram_eq hp), bind_ok (hget _)]
  exact ⟨_, bind_error (settle_of_failure hf rfl), rfl⟩

end

/-- A script that is loaded leaves the files that its commands write empty, and then runs over texts add to each of them
the lines that its commands write there, in the order in which they are done; all other files are as they were before
the script was loaded. A script that can not be read or prepared changes no file. -/
theorem files_hold_what_is_written (lines : List Text) (m : Machine) :
    (∀ m₁, loadLines lines m = .ok () m₁ → ∃ q n p,
      Script.program (Script.pack lines) m.nextNumber = .ok q n ∧
      p = (q.prepare ⟨m.editor.extended, m.deferred⟩).value ∧ m₁.editor.program = some p ∧
      ∀ laps m₂, RunsInTurn p m₁ laps m₂ →
        (∀ budget t m₃, apply budget (.text t) .nowhere m₂ = .ok () m₃ →
          ∃ laps', RunsOver p (.text t) .nowhere m₂ laps' false m₃) ∧
        ∀ name, m₂.store.lookup name =
          if p.any (Command.writesTo name) then some (utf8Lines (laps.flatMap (Lap.writtenTo name)))
          else m.store.lookup name) ∧
    (∀ e n, Script.program (Script.pack lines) m.nextNumber = .error e n →
      ∃ m', loadLines lines m = .error e m' ∧ m'.store = m.store) ∧
    ∀ q n e, Script.program (Script.pack lines) m.nextNumber = .ok q n →
      (q.prepare ⟨m.editor.extended, m.deferred⟩).failure = some e →
      ∃ m', loadLines lines m = .error e m' ∧ m'.store = m.store := by
  rw [loadLines_eq]
  refine ⟨fun m₁ hl => ?_, fun e n h => ⟨_, install_of_unread h, rfl⟩, fun q n e hp hf => install_of_unprepared hp hf⟩
  rw [← loadLines_eq] at hl
  obtain ⟨q, n, hp⟩ := program_of_loadLines hl
  obtain ⟨-, hm⟩ := loaded_of_loadLines hl hp
  obtain ⟨hf, hstore⟩ := store_of_loadLines hl hp
  refine ⟨q, n, _, hp, rfl, hm, fun laps m₂ hruns => ⟨fun budget t m₃ h => ?_, fun name => ?_⟩⟩
  · obtain ⟨laps', hrun, -⟩ := exists_runsOver (Program.closed_prepare hp _) (hruns.program_eq hm) h
    exact ⟨laps', hrun⟩
  · have hgains := hruns.gains name
    have hloaded := lookup_createFiles hf name
    rw [← hstore] at hloaded
    cases hw : List.any (q.prepare ⟨m.editor.extended, m.deferred⟩).value (Command.writesTo name) with
    | true =>
      rw [hw, if_pos rfl] at hloaded
      exact hgains.grown [] hloaded
    | false =>
      rw [hw, if_neg (by simp)] at hloaded
      rw [if_neg (by simp), ← hloaded]
      exact hgains.same (hruns.writtenTo_eq_nil (by simpa using hw))

def sampleTwoWriters : List Text := [['w', ' ', 'f'], ['s', '/', 'a', '/', 'b', '/', 'w', ' ', '.', '/', 'f']]

def sampleFiles : Machine := ⟨{}, [(['f'], [1]), (['g'], [2])], 1, false, #[], 0⟩

theorem files_of_sampleTwoWriters_hold_what_is_written :
    ∃ (p : Program) (m₁ m₂ m₃ : Machine) (laps : List Lap), loadLines sampleTwoWriters sampleFiles = .ok () m₁ ∧
      apply 4 (.text ['a', '\n', 'c', '\n']) .nowhere m₁ = .ok () m₂ ∧
      apply 2 (.text ['a']) .nowhere m₂ = .ok () m₃ ∧ RunsInTurn p m₁ laps m₃ ∧
      utf8Lines (laps.flatMap (Lap.writtenTo ['f'])) =
        Text.toUtf8 ['a', '\n', 'b', '\n', 'c', '\n', 'a', '\n', 'b', '\n'] ∧
      m₃.store.lookup ['g'] = some [2] := by
  obtain ⟨m₁, h₁⟩ : ∃ m₁, loadLines sampleTwoWriters sampleFiles = .ok () m₁ := Outcome.of_result? (by decide +kernel)
  let first := apply 4 (.text ['a', '\n', 'c', '\n']) .nowhere (final (loadLines sampleTwoWriters sampleFiles))
  let second := apply 2 (.text ['a']) .nowhere (final first)
  obtain ⟨m₂, h₂⟩ : ∃ m₂, first = .ok () m₂ := Outcome.of_result? (by decide +kernel)
  obtain ⟨m₃, h₃⟩ : ∃ m₃, second = .ok () m₃ := Outcome.of_result? (by decide +kernel)
  have hf : (final second).store.lookup ['f'] =
      some (Text.toUtf8 ['a', '\n', 'b', '\n', 'c', '\n', 'a', '\n', 'b', '\n']) := by
    decide +kernel
  have hw : (final second).editor.program.map (fun p => (p.any (Command.writesTo ['f']), p.any (Command.writesTo ['g']))) =
      some (true, false) := by
    decide +kernel
  rw [h₃] at hf hw
  simp only [second, h₂, final] at h₃
  simp only [first, h₁, final] at h₂
  obtain ⟨q, n, p, -, -, hp, hruns⟩ := (files_hold_what_is_written sampleTwoWriters sampleFiles).1 m₁ h₁
  obtain ⟨laps₁, hrun₁⟩ := (hruns [] m₁ .none).1 4 _ m₂ h₂
  have hturn₁ : RunsInTurn p m₁ ([] ++ laps₁) m₂ := .next .none hrun₁
  obtain ⟨laps₂, hrun₂⟩ := (hruns _ m₂ hturn₁).1 2 _ m₃ h₃
  have hturn₂ := hturn₁.next hrun₂
  rw [show (final (.ok () m₃ : EStateM.Result Failure Machine Unit)).editor.program = some p from
    hturn₂.program_eq hp] at hw
  simp only [Option.map_some, Option.some.injEq, Prod.mk.injEq] at hw
  have hheld := (hruns _ m₃ hturn₂).2
  have hheld_f := hheld ['f']
  have hheld_g := hheld ['g']
  rw [hw.1, if_pos rfl] at hheld_f
  rw [hw.2, if_neg (by simp)] at hheld_g
  exact ⟨p, m₁, m₂, m₃, _, h₁, h₂, h₃, hturn₂, Option.some.inj (hheld_f.symm.trans hf), hheld_g⟩

end StreamEditor
