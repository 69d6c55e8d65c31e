import StreamEditor.Proofs.Editor.Files
import StreamEditor.Proofs.Input.LastLine
import StreamEditor.Proofs.Output.Laps
import StreamEditor.Proofs.Runs.Coupling

/-! Reading with look-ahead. Readers that hand out the same lines can stand for each other in runs of programs that do
not ask for the last line. -/

namespace StreamEditor

open Edit Outcome

def LineReader.SameLines (r r' : LineReader) : Prop := ∀ n, r.reads n = r'.reads n

lemma LineReader.SameLines.readLine {r r' : LineReader} (h : r.SameLines r') :
    r.readLine.1 = r'.readLine.1 ∧ r.readLine.2.SameLines r'.readLine.2 :=
  ⟨(List.cons.inj (h 1)).1, fun n => (List.cons.inj (h (n + 1))).2⟩

lemma LineReader.sameLines_openBuffered (source : List Text) : (openPlain source).SameLines (openBuffered source) :=
  fun n => (reads_ofLines false source n).trans (reads_ofLines true source n).symm

def Frame.handing : Frame where
  shared part := part ≠ .lastLine
  reader := LineReader.SameLines
  input _ _ _ h := h.readLine
  lastLine h := absurd rfl h
  trials _ := ⟨nofun, nofun⟩

/-- Nothing differs but the readers, and they hand out the same lines from now on. -/
def SameButReader (m n : Machine) : Prop :=
  m.editor.reader.SameLines n.editor.reader ∧ n = { m with editor := { m.editor with reader := n.editor.reader } }

def startOn (opened : List Text → LineReader) (source : Source) (destination : Destination) : Edit Bool := do
  let lines ← lift (source.lines (← get).store)
  update fun e => { e with reader := opened lines, lineNumber := 0, printed := #[] }
  openOutput destination
  let line ← readLine
  setPattern line
  return line.isSome

def applyOn (opened : List Text → LineReader) (budget : Nat) (source : Source) (destination : Destination) :
    Edit Unit := do
  match (← editor).program with
  | none => throw .noProgram
  | some program => if ← startOn opened source destination then runFrom program budget 0

lemma Command.asksLast_of_uses {c : Command} (h : .lastLine ∈ c.uses) : c.asksLast = true := by
  have haddress {a : Address} (ha : .lastLine ∈ a.uses) : a.isLast = true := by
    cases a with
    | last => rfl
    | line n => simp [Address.uses] at ha
    | regexp source ignoreCase prepared =>
      rw [Address.uses] at ha
      split at ha <;> simp at ha
  have haction (a : Action) : .lastLine ∉ a.uses := by
    cases a with
    | substitute s =>
      rw [Action.uses]
      split <;> simp
    | _ => simp [Action.uses]
  simp only [uses, List.mem_append, List.mem_flatMap, Option.mem_toList] at h
  rw [asksLast, Bool.or_eq_true, Option.any_eq_true, Option.any_eq_true]
  rcases h with ((⟨a, ha, h⟩ | ⟨a, ha, h⟩) | h) | h
  · exact .inl ⟨a, ha, haddress h⟩
  · exact .inr ⟨a, ha, haddress h⟩
  · split at h <;> simp at h
  · exact absurd h (haction c.action)

section

variable {p : Program} {m n : Machine} (source : Source) (destination : Destination) (budget : Nat)

lemma apply_eq_applyOn (hm : m.editor.program = some p) :
    apply budget source destination m = applyOn (.ofLines p.asksLast) budget source destination m := by
  rw [apply, applyOn, bind_ok (show editor m = .ok m.editor m from rfl),
    bind_ok (show editor m = .ok m.editor m from rfl), hm]
  rfl

lemma Coupling.Couples.sameButReader (h : Frame.handing.together.Couples m n) : SameButReader m n := by
  have hout : m.outside = n.outside := h.outside
  have hshared (part : Part) (hpart : part ≠ .lastLine) : Frame.handing.together.shared part := hpart
  have hfixed := h.fixed (hshared _ (by simp))
  simp only [Machine.outside, Outside.mk.injEq] at hout
  simp only [Machine.fixed, Prod.mk.injEq] at hfixed
  obtain ⟨hq, hps, ho, hs⟩ := hout
  obtain ⟨hp, he, hd, hn, ht⟩ := hfixed
  refine ⟨h.reader, ?_⟩
  dsimp only
  rw [h.pattern, h.substituted, h.queue, h.hold (hshared _ (by simp)), h.lineNumber (hshared _ (by simp)),
    h.lastRegexp (hshared _ (by simp)), h.ranges (hshared _ (by simp)), h.trials (hshared _ (by simp)), hq, hps, ho, hs,
    hp, he, hd, hn, ht]

lemma Coupling.Couples.facing {f : Frame} (h : f.together.Couples m n) (g : Outside → Outside) :
    f.together.Couples (m.facing (g m.outside)) (n.facing (g n.outside)) :=
  { h with outside := congrArg g h.outside }

lemma Coupling.Couples.openOutput {f : Frame} (h : f.together.Couples m n) :
    Alike f.together.Couples (openOutput destination m) (openOutput destination n) := by
  cases destination with
  | nowhere => exact .ok () (h.facing fun o => { o with output := .silent })
  | stream => exact .ok () (h.facing fun o => { o with output := .stream })
  | file path =>
    refine .bind (h.lift _) fun name _ _ h => .ok () ?_
    exact h.facing fun o => { o with output := .file name false [], store := o.store.put name [] }

lemma alike_startOn (m : Machine) :
    Alike Frame.handing.together.Couples (startOn .openPlain source destination m)
      (startOn .openBuffered source destination m) := by
  have hrefl : Frame.handing.together.Couples m m :=
    ⟨rfl, rfl, rfl, rfl, fun _ => rfl, fun _ => rfl, fun _ => rfl, fun _ => rfl, fun _ => rfl, fun _ => rfl,
      fun _ => rfl⟩
  refine alike_after_get (.bind (hrefl.lift _) fun lines _ _ h => .bind (alike_update { h with
    reader := LineReader.sameLines_openBuffered lines
    lineNumber := fun _ => rfl
    outside := (h.facing fun o => { o with printed := #[] }).outside }) fun _ _ _ h => ?_)
  refine .bind (h.openOutput destination) fun _ _ _ h => .bind (h.readLine nofun) fun line _ _ h => ?_
  exact .bind (h.setPattern line) fun _ _ _ h => .ok _ h

lemma alike_applyOn (hm : m.editor.program = some p) (hp : p.asksLast = false) :
    Alike SameButReader (applyOn .openPlain budget source destination m)
      (applyOn .openBuffered budget source destination m) := by
  have hfits : ∀ c ∈ p, Frame.handing.Fits c := by
    rintro c hc part hpart rfl
    exact absurd (Command.asksLast_of_uses hpart) (List.any_eq_false.1 hp c hc)
  have hrun : Alike Frame.handing.together.Couples
      ((do if ← startOn .openPlain source destination then runFrom p budget 0) m)
      ((do if ← startOn .openBuffered source destination then runFrom p budget 0) m) := by
    refine .bind (alike_startOn source destination m) fun more _ _ h => ?_
    cases more with
    | true => exact Frame.runFrom_together (f := .handing) nofun hfits budget 0 h
    | false => exact .ok () h
  rw [applyOn, applyOn]
  refine alike_after_editor ?_
  rw [hm]
  exact hrun.mono fun _ _ h => h.sameButReader

end

/-- A run does not write its source: a text is no file, and a file is neither where the output goes or is still going,
nor written by a command. -/
def Source.Untouched (p : Program) (destination : Destination) (m : Machine) : Source → Prop
  | .text _ => True
  | .file path => ∀ name, Store.locate path = .ok name →
      m.editor.output.openFile? ≠ some name ∧ (∀ other, destination = .file other → Store.locate other ≠ .ok name) ∧
        ∀ c ∈ p, ∀ file ∈ c.action.written, Store.locate file ≠ .ok name

section

variable {p : Program} {m : Machine}

lemma Spared.apply {name : Text} {contents : Option Bytes} (h : Spared name contents m)
    (hm : m.editor.program = some p)
    (hwritten : ∀ c ∈ p, ∀ file ∈ c.action.written, Store.locate file ≠ .ok name) {destination : Destination}
    (hdestination : ∀ path, destination = .file path → Store.locate path ≠ .ok name) (source : Source)
    (budget : Nat) : Spared name contents (final (StreamEditor.apply budget source destination m)) := by
  refine final_apply_of hm ?_ fun _ h => h.runFrom hwritten budget 0
  cases hs : source.lines m.store with
  | error e =>
    rw [start]
    change Spared _ _ (final ((lift (source.lines m.store) >>= _) m))
    rw [hs]
    exact h
  | ok lines =>
    have hopening : Within (WorkBy (Sparing name contents)) (do
        openOutput destination
        let line ← readLine
        setPattern line
        return line.isSome) :=
      .bind (sparing_openOutput hdestination).work fun _ =>
        .bind within_readLine fun line => .bind (within_setPattern line) fun _ => .pure _
    rw [start_eq hs]
    exact hopening.preserves (fun _ _ h => MoveBy.spared (i := 0) (.inr h)) ⟨h.held, h.output⟩

lemma Source.Untouched.lines_eq {source : Source} {destination : Destination} (h : source.Untouched p destination m)
    (hm : m.editor.program = some p) (budget : Nat) :
    source.lines (final (apply budget source destination m)).store = source.lines m.store := by
  cases source with
  | text t => rfl
  | file path =>
    have hread : (final (apply budget (.file path) destination m)).store.read path = m.store.read path := by
      refine Store.read_eq_of_lookup fun name hl => ?_
      obtain ⟨houtput, hdestination, hwritten⟩ := h name hl
      have hspared : Spared name (m.store.lookup name) m := ⟨rfl, houtput⟩
      exact (hspared.apply hm hwritten hdestination (.file path) budget).held
    rw [lines, lines, hread]

end

/-- Both kinds of reader hand out the lines of a source and then nothing, however often they are asked. A program that
does not ask for the last line is run without look-ahead. Its source, if the run does not write it, holds the same lines
all the while, so that it makes no difference when they are read; and a run with look-ahead would come to the same: the
same commands tried in the same states, the same lines shown and written, the same line number, and the same failure. -/
theorem look_ahead_changes_nothing {q : Program} (hq : ∀ c ∈ q, c.first ≠ some .last ∧ c.second ≠ some .last)
    {mode : RegexpMode} {m : Machine} (hm : m.editor.program = some (q.prepare mode).value) :
    (∀ (lines : List Text) (n : Nat),
      LineReader.reads n (.openPlain lines) = (List.range n).map (lines[·]?) ∧
      LineReader.reads n (.openBuffered lines) = (List.range n).map (lines[·]?)) ∧
    ∀ (source : Source) (destination : Destination), source.Untouched (q.prepare mode).value destination m →
      ∀ budget : Nat,
        source.lines (final (apply budget source destination m)).store = source.lines m.store ∧
        apply budget source destination m = applyOn .openPlain budget source destination m ∧
        Alike SameButReader (applyOn .openPlain budget source destination m)
          (applyOn .openBuffered budget source destination m) := by
  have hasks : Program.asksLast (q.prepare mode).value = false := by
    rw [q.asksLast_prepare mode, Bool.eq_false_iff, Ne, Program.asksLast_iff]
    rintro ⟨c, hc, h⟩
    exact h.elim (hq c hc).1 (hq c hc).2
  refine ⟨fun lines n => ⟨LineReader.reads_ofLines false lines n, LineReader.reads_ofLines true lines n⟩,
    fun source destination huntouched budget =>
      ⟨huntouched.lines_eq hm budget, ?_, alike_applyOn source destination budget hm hasks⟩⟩
  rw [apply_eq_applyOn source destination budget hm, hasks]
  rfl

theorem look_ahead_changes_nothing_sampleQueueing :
    ∃ m m₁ m₂ : Machine, m.editor.program = some (sampleQueueingProgram.prepare ⟨false, false⟩).value ∧
      Source.Untouched (sampleQueueingProgram.prepare ⟨false, false⟩).value (.file ['g']) m (.file ['f']) ∧
      applyOn .openPlain 2 (.file ['f']) (.file ['g']) m = .ok () m₁ ∧
      applyOn .openBuffered 2 (.file ['f']) (.file ['g']) m = .ok () m₂ ∧
      SameButReader m₁ m₂ ∧ m₁.shown = [['1'], ['x']] ∧
      m₁.trials.toList = [⟨1, true, some ['1'], []⟩, ⟨2, true, none, []⟩] := by
  let p : Program := (sampleQueueingProgram.prepare ⟨false, false⟩).value
  let m : Machine := ⟨{ program := some p }, [(['f'], [49, 10])], 1, false, #[], 9⟩
  let run := applyOn .openPlain 2 (.file ['f']) (.file ['g']) m
  obtain ⟨m₁, h₁⟩ : ∃ m₁, run = .ok () m₁ := Outcome.of_result? (by decide +kernel)
  have hshown : (final run).shown = [['1'], ['x']] := by decide +kernel
  have htrials : (final run).trials.toList = [⟨1, true, some ['1'], []⟩, ⟨2, true, none, []⟩] := by decide +kernel
  rw [h₁] at hshown htrials
  have huntouched : Source.Untouched p (.file ['g']) m (.file ['f']) := by
    intro name hname
    have hf : Store.locate ['f'] = .ok ['f'] := by decide +kernel
    obtain rfl : ['f'] = name := Except.ok.inj (hf.symm.trans hname)
    refine ⟨by simp [m, Output.openFile?], ?_, by decide +kernel⟩
    rintro other ⟨⟩
    decide +kernel
  obtain ⟨-, hruns⟩ := look_ahead_changes_nothing (q := sampleQueueingProgram) (by decide) (m := m) rfl
  obtain ⟨-, -, halike⟩ := hruns (.file ['f']) (.file ['g']) huntouched 2
  obtain ⟨m₂, h₂, hsame⟩ := halike.of_ok h₁
  exact ⟨m, m₁, m₂, rfl, huntouched, h₁, h₂, hsame, hshown, htrials⟩

end StreamEditor
