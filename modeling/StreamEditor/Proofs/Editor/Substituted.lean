import StreamEditor.Proofs.Output.Laps
import StreamEditor.Proofs.Runs.Outside

/-! The flag that a test looks at. It tells of a whole run whether something has been replaced since a line was read
or a test has taken the flag. -/

namespace StreamEditor

open Edit Outcome

lemma eq_ok_of_result? {α : Type} {r : EStateM.Result Failure Machine α} {a : α} (h : result? r = some a) :
    r = .ok a (final r) := by
  obtain ⟨m, rfl⟩ := of_result? h
  rfl

abbrev Machine.flag (m : Machine) : Bool := m.editor.substituted

/-- A step of a run: the first line is read, a command is tried, it fails while it is done, or the cycle is ended
after the command tried last. -/
inductive Happening where
  | opening
  | trying (t : Try)
  | failing (t : Try)
  | ending (t : Try)

namespace Try

def replaces (t : Try) : Bool :=
  match t.command.action with
  | .substitute s => t.selected && (s.made? t.state).isSome
  | _ => false

def asksLine (t : Try) : Bool :=
  match t.command.action with
  | .next | .nextAppend => t.selected
  | .deleteFirst => t.selected && !t.state.space.contains '\n'
  | _ => false

def takesFlag (t : Try) : Bool :=
  match t.command.action with
  | .test _ => t.selected && t.state.flag
  | _ => false

def endsLine (t : Try) : Bool :=
  t.command.action ≠ .deleteFirst && !(t.command.action = .quit && t.selected)

end Try

namespace Happening

def replaces : Happening → Bool
  | trying t | failing t => t.replaces
  | _ => false

-- A command that fails has not come to read a line.
def asksLine : Happening → Bool
  | opening => true
  | trying t => t.asksLine
  | failing _ => false
  | ending t => t.endsLine

def takesFlag : Happening → Bool
  | trying t => t.takesFlag
  | _ => false

def effect (h : Happening) (flag : Bool) : Bool := h.replaces || flag && !(h.asksLine || h.takesFlag)

end Happening

/-- Something was replaced, and no line was asked for and no flag taken since then. -/
def ReplacedSince (log : List Happening) : Prop :=
  ∃ before h after, log = before ++ h :: after ∧ h.replaces = true ∧
    ∀ h' ∈ after, h'.asksLine = false ∧ h'.takesFlag = false

inductive Stage where
  | before (i : Nat)
  | after (t : Try)
  | finished

def Stage.ofNext (t : Try) : Option Nat → Stage
  | some j => before j
  | none => after t

def Stage.ofMore (more : Bool) : Stage := if more then before 0 else finished

/-- All that has happened in a run, and what it has come to, also where it fails. -/
inductive Story (p : Program) (source : Source) (destination : Destination) (m : Machine) :
    List Happening → Stage → Machine → Prop
  | opened {more : Bool} {m' : Machine} : start p source destination m = .ok more m' →
      Story p source destination m [.opening] (.ofMore more) m'
  | tried {log : List Happening} {i : Nat} {m₁ m' : Machine} {t : Try} {next : Option Nat} :
      Story p source destination m log (.before i) m₁ → Trying p i m₁ t next m' →
      Story p source destination m (log ++ [.trying t]) (.ofNext t next) m'
  | ended {log : List Happening} {m₁ m' : Machine} {t : Try} {more : Bool} :
      Story p source destination m log (.after t) m₁ → endCycle t.command t.selected m₁ = .ok more m' →
      Story p source destination m (log ++ [.ending t]) (.ofMore more) m'
  | undecided {log : List Happening} {i : Nat} {m₁ m' : Machine} {c : Command} {e : Failure} :
      Story p source destination m log (.before i) m₁ → p[i]? = some c → c.selected i m₁ = .error e m' →
      Story p source destination m log .finished m'
  | failed {log : List Happening} {i : Nat} {m₁ m₂ m' : Machine} {c : Command} {e : Failure} :
      Story p source destination m log (.before i) m₁ → p[i]? = some c → c.selected i m₁ = .ok true m₂ →
      c.perform i m₂ = .error e m' → Story p source destination m (log ++ [.failing ⟨i, c, true, m₂⟩]) .finished m'
  | unended {log : List Happening} {m₁ m' : Machine} {t : Try} {e : Failure} :
      Story p source destination m log (.after t) m₁ → endCycle t.command t.selected m₁ = .error e m' →
      Story p source destination m log .finished m'

def Steady {α : Type} (x : Edit α) : Prop := ∀ m : Machine, (final (x m)).flag = m.flag

namespace Steady

variable {α β : Type} {x : Edit α}

lemma pure (a : α) : Steady (pure a : Edit α) := fun _ => rfl

lemma throw (e : Failure) : Steady (throw e : Edit α) := fun _ => rfl

lemma get : Steady (get : Edit Machine) := fun _ => rfl

lemma update {g : Editor → Editor} (hg : ∀ e, (g e).substituted = e.substituted) : Steady (update g) :=
  fun m => hg m.editor

lemma bind {f : α → Edit β} (hx : Steady x) (hf : ∀ a, Steady (f a)) : Steady (x >>= f) := fun m =>
  (final_bind (g := Machine.flag) hf x m).trans (hx m)

lemma forM {τ : Type} {act : τ → Edit PUnit} (h : ∀ t, Steady (act t)) (ts : List τ) : Steady (ts.forM act) := by
  induction ts with
  | nil => exact .pure _
  | cons t ts ih => exact .bind (h t) fun _ => ih

lemma of_show (hx : Within Show x) : Steady x := hx.final_eq fun m m' h => by cases h <;> rfl

end Steady

lemma steady_editor : Steady editor := .bind .get fun _ => .pure _

lemma steady_pattern : Steady Edit.pattern := .bind steady_editor fun _ => .pure _

lemma steady_setPattern (t : Option Text) : Steady (setPattern t) := .update fun _ => rfl

lemma steady_print (t : Text) : Steady (print t) := .of_show (within_print t)

lemma steady_writeFile (name line : Text) : Steady (writeFile name line) := .of_show (within_writeFile name line)

lemma steady_showAuto (t : Text) : Steady (showAuto t) := by
  refine .bind steady_editor fun e => ?_
  split
  · exact steady_print t
  · exact .pure _

lemma steady_selected (i : Nat) (c : Command) : Steady (c.selected i) := by
  refine (within_selected i c).final_eq fun m m' h => ?_
  obtain ⟨x, ranges, rfl⟩ := h.exists_eq
  rfl

lemma steady_transliteration (y : Transliteration) : Steady y.execute := by
  refine .bind steady_pattern fun t => ?_
  split
  · exact steady_setPattern _
  · split
    · exact .pure _
    · exact .throw _

def Action.usesFlag : Action → Bool
  | .deleteFirst | .next | .nextAppend | .substitute _ | .test _ => true
  | _ => false

lemma steady_perform {c : Command} (hc : c.action.usesFlag = false) (i : Nat) : Steady (c.perform i) := by
  rw [Command.perform]
  cases ha : c.action with
  | openBlock | branch label | closeBlock | label name | quit => exact .pure _
  | append t => exact .bind (.update fun _ => rfl) fun _ => .pure _
  | change t =>
    have hstop : Steady (do setPattern none; return Flow.stop : Edit Flow) :=
      .bind (steady_setPattern none) fun _ => .pure _
    refine .bind steady_editor fun e => ?_
    dsimp only
    split
    · exact .bind (steady_print t) fun _ => hstop
    · exact hstop
  | delete => exact .bind (steady_setPattern none) fun _ => .pure _
  | lineNumber => exact .bind steady_editor fun _ => .bind (steady_print _) fun _ => .pure _
  | get => exact .bind steady_editor fun _ => .bind (steady_setPattern _) fun _ => .pure _
  | getAppend =>
    exact .bind steady_pattern fun _ => .bind steady_editor fun _ => .bind (steady_setPattern _) fun _ => .pure _
  | hold | holdAppend | exchange => exact .bind steady_pattern fun _ => .bind (.update fun _ => rfl) fun _ => .pure _
  | insert t => exact .bind (steady_print t) fun _ => .pure _
  | list => exact .bind steady_pattern fun _ => .bind (.forM steady_print _) fun _ => .pure _
  | print | printFirst => exact .bind steady_pattern fun _ => .bind (steady_print _) fun _ => .pure _
  | read file => exact .bind .get fun _ => .bind (.update fun _ => rfl) fun _ => .pure _
  | write file => exact .bind steady_pattern fun t => .bind (steady_writeFile file t) fun _ => .pure _
  | transliterate y => exact .bind (steady_transliteration y) fun _ => .pure _
  | deleteFirst | next | nextAppend | substitute s | test label =>
    rw [ha] at hc
    cases hc

section

variable {m : Machine}

def Substitution.EndsAs (m : Machine) (made : Text → Prop) (m' : Machine) : Prop :=
  (∀ new, made new → m'.editor.pattern = some new ∧ m'.flag = true) ∧
    ((∀ new, ¬made new) → m'.editor.pattern = m.editor.pattern ∧ m'.flag = m.flag ∧ m'.shown = m.shown ∧
      m'.store = m.store)

lemma endsAs_of_none {made : Text → Prop} (hnone : ∀ new, ¬made new) : Substitution.EndsAs m made m :=
  ⟨fun new h => absurd h (hnone new), fun _ => ⟨rfl, rfl, rfl, rfl⟩⟩

lemma endsAs_replace (s : Substitution) (x : Regexp) :
    Substitution.EndsAs m (fun new => x.substitute? s.replacement s.count m.space = .ok (some new))
      (final (s.replace x m)) := by
  have hreplace : s.replace x m = (lift (x.substitute? s.replacement s.count m.space) >>= _ : Edit Unit) m := rfl
  rw [hreplace]
  cases x.substitute? s.replacement s.count m.space with
  | error e => exact endsAs_of_none (by simp)
  | ok found =>
    rw [bind_ok (show lift (.ok found) m = .ok found m from rfl)]
    cases found with
    | none => exact endsAs_of_none (by simp)
    | some t =>
      have hwrite : Within Show (if s.write then writeFile s.file t else pure () : Edit Unit) := by
        split
        · exact within_writeFile s.file t
        · exact .pure _
      have hshow : Within Show (do
          if s.print then Edit.print t
          if s.write then writeFile s.file t : Edit Unit) := by
        dsimp only
        split
        · exact .bind (within_print t) fun _ => hwrite
        · exact hwrite
      have hkeeps := hshow.final_eq (g := fun m => (m.editor.pattern, m.flag)) fun m m' h => by cases h <;> rfl
      have hfinal := hkeeps { m with editor := { m.editor with pattern := some t, substituted := true } }
      refine ⟨fun new h => ?_, fun hnone => absurd rfl (hnone t)⟩
      cases h
      exact Prod.mk.inj hfinal

lemma of_choose_error {s : Substitution} {e : Failure} {m' : Machine} (h : s.choose m = .error e m') :
    s.regexp? m = none ∧ m' = m := by
  rw [Substitution.choose] at h
  rw [Substitution.regexp?]
  cases ht : s.target with
  | pending =>
    rw [ht] at h
    cases h
    exact ⟨rfl, rfl⟩
  | own x =>
    rw [ht] at h
    cases h
  | recalled =>
    rw [ht] at h
    dsimp only at h ⊢
    rw [useRegexp, bind_ok (show editor m = .ok m.editor m from rfl)] at h
    cases hl : m.editor.lastRegexp with
    | none =>
      rw [hl] at h
      cases h
      exact ⟨rfl, rfl⟩
    | some x =>
      rw [hl] at h
      cases h

lemma endsAs_execute (s : Substitution) :
    Substitution.EndsAs m (fun new => s.made? m = some new) (final (s.execute m)) := by
  rw [s.execute_eq, Substitution.made?]
  cases h : s.choose m with
  | error e m' =>
    obtain ⟨hnone, rfl⟩ := of_choose_error h
    rw [bind_error h, hnone]
    exact endsAs_of_none (by simp)
  | ok x m' =>
    obtain ⟨hx, last, rfl⟩ := of_choose h
    rw [bind_ok h, hx]
    simp only [Option.bind_some, toOption_join_eq_some]
    exact endsAs_replace (m := { m with editor := { m.editor with lastRegexp := last } }) s x

-- The flag is set as soon as something is replaced, even if the result can not be shown or written.
lemma flag_substitution (s : Substitution) : (final (s.execute m)).flag = (m.flag || (s.made? m).isSome) := by
  obtain ⟨hdone, hnone⟩ := endsAs_execute (m := m) s
  cases hmade : s.made? m with
  | none => simp [(hnone (by simp [hmade])).2.1]
  | some new => simp [(hdone new hmade).2]

variable {i : Nat} {c : Command}

def Turns (x : Edit Flow) (m : Machine) (done failed : Bool) : Prop :=
  (∀ flow m', x m = .ok flow m' → m'.flag = done) ∧ ∀ e m', x m = .error e m' → m'.flag = failed

lemma turns_of_final {x : Edit Flow} {b : Bool} (h : (final (x m)).flag = b) : Turns x m b b := by
  constructor
  · intro flow m' ho
    rwa [ho] at h
  · intro e m' he
    rwa [he] at h

lemma turns_of_ok {x : Edit Flow} {flow : Flow} {m' : Machine} (h : x m = .ok flow m') (b : Bool) :
    Turns x m m'.flag b := by
  constructor
  · intro flow' m₁ ho
    rw [h] at ho
    cases ho
    rfl
  · intro e m₁ he
    cases h.symm.trans he

lemma turns_next (hc : c.action = .next) : Turns (c.perform i) m false m.flag := by
  have hshow := steady_showAuto m.space m
  rw [Turns, perform_next m hc i]
  cases h : showAuto m.space m with
  | error e m₁ =>
    rw [h] at hshow
    rw [bind_error h]
    constructor
    · intro flow m' ho
      cases ho
    · intro e m' he
      cases he
      exact hshow
  | ok _ m₁ =>
    have htake : takeLine m₁ = .ok _ (final (takeLine m₁)) := rfl
    rw [bind_ok h]
    exact turns_of_ok htake _

lemma turns_nextAppend (hc : c.action = .nextAppend) (b : Bool) : Turns (c.perform i) m false b := by
  have hread : readLine m = .ok (m.editor.reader.readLine.1.map Text.chomp) (final (readLine m)) := rfl
  rw [Turns, Command.perform, hc]
  dsimp only
  rw [bind_ok hread]
  cases m.editor.reader.readLine.1.map Text.chomp with
  | none => exact turns_of_ok (x := pure Flow.stop) (m := final (readLine m)) rfl b
  | some line =>
    exact turns_of_ok (x := do setPattern _; return Flow.onward) (m := final (readLine m)) rfl b

lemma turns_deleteFirst (hc : c.action = .deleteFirst) (b : Bool) :
    Turns (c.perform i) m (m.flag && m.space.contains '\n') b := by
  rw [Turns, Command.perform, hc]
  dsimp only
  rw [bind_ok (show Edit.pattern m = .ok m.space m from rfl)]
  cases m.space.contains '\n' with
  | true =>
    rw [Bool.and_true]
    exact turns_of_ok (x := do setPattern _; return Flow.stop) (m := m) rfl b
  | false =>
    rw [Bool.and_false]
    exact turns_of_ok (x := do setPattern (some []); setPattern (← readLine); return Flow.stop) (m := m) rfl b

lemma perform_test {label : Text} (hc : c.action = .test label) :
    ∃ m', c.perform i m = .ok (if m.flag then .branch else .onward) m' ∧ m'.flag = false := by
  rw [Command.perform, hc, Machine.flag]
  dsimp only
  rw [bind_ok (show editor m = .ok m.editor m from rfl)]
  cases hm : m.editor.substituted with
  | true => exact ⟨_, rfl, rfl⟩
  | false => exact ⟨_, rfl, hm⟩

lemma turns_substitute {s : Substitution} (hc : c.action = .substitute s) :
    Turns (c.perform i) m (m.flag || (s.made? m).isSome) (m.flag || (s.made? m).isSome) := by
  apply turns_of_final
  rw [Command.perform, hc, ← flag_substitution]
  exact final_bind (g := Machine.flag) (fun _ _ => rfl) _ m

lemma turns_perform (i : Nat) (c : Command) (m : Machine) :
    Turns (c.perform i) m ((Happening.trying ⟨i, c, true, m⟩).effect m.flag)
      ((Happening.failing ⟨i, c, true, m⟩).effect m.flag) := by
  simp only [Happening.effect, Happening.replaces, Happening.asksLine, Happening.takesFlag, Try.replaces,
    Try.asksLine, Try.takesFlag]
  cases ha : c.action with
  | next => simpa using turns_next ha
  | nextAppend => simpa using turns_nextAppend ha m.flag
  | deleteFirst => simpa using turns_deleteFirst ha m.flag
  | substitute s => simpa [Bool.or_comm] using turns_substitute (i := i) (m := m) ha
  | test label =>
    obtain ⟨m', ho, hflag⟩ := perform_test (i := i) (m := m) ha
    simpa [hflag] using turns_of_ok ho m.flag
  | _ => simpa using turns_of_final (steady_perform (by rw [ha]; rfl) i m)

end

section

variable {p : Program} {source : Source} {destination : Destination} {m m' : Machine} {i : Nat} {t : Try}

lemma effect_of_not_selected (ht : t.selected = false) (flag : Bool) : (Happening.trying t).effect flag = flag := by
  simp only [Happening.effect, Happening.replaces, Happening.asksLine, Happening.takesFlag, Try.replaces,
    Try.asksLine, Try.takesFlag, ht]
  cases t.command.action <;> simp

lemma flag_of_selected {c : Command} {found : Bool} (h : c.selected i m = .ok found m') : m'.flag = m.flag := by
  have hflag := steady_selected i c m
  rwa [h] at hflag

lemma Trying.flag {next : Option Nat} (h : Trying p i m t next m') : m'.flag = (Happening.trying t).effect m.flag := by
  obtain ⟨rfl, -, hs, flow, m₁, ha, hr, -⟩ := h
  obtain ⟨m₂, hs', hp⟩ := of_attempt ha
  obtain rfl : t.state = m₂ := by
    rw [hs] at hs'
    cases hs'
    rfl
  rw [Machine.flag, (kept_of_record hr).1, ← flag_of_selected hs]
  cases hsel : t.selected with
  | true =>
    have ht : t = ⟨t.position, t.command, true, t.state⟩ := by rw [← hsel]
    rw [hsel] at hp
    rw [ht]
    exact (turns_perform t.position t.command t.state).1 flow m₁ hp
  | false =>
    rw [hsel] at hp
    cases hp
    exact (effect_of_not_selected hsel _).symm

lemma steady_showCycle (last : Command) : Steady (showCycle last) := by
  have hflush : Steady flushQueue :=
    .bind steady_editor fun _ => .bind (.forM steady_print _) fun _ => .update fun _ => rfl
  refine .bind steady_editor fun e => ?_
  dsimp only
  split
  · refine .bind ?_ fun _ => hflush
    cases e.pattern with
    | none => exact .pure _
    | some t => exact steady_print t
  · exact hflush

lemma flag_nextCycle (last : Command) (m : Machine) :
    ∃ more m', nextCycle last m = .ok more m' ∧ m'.flag = (m.flag && last.action = .deleteFirst) := by
  have hadvance : ∃ m₁, advance last m = .ok () m₁ ∧ m₁.flag = (m.flag && last.action = .deleteFirst) := by
    rw [advance]
    by_cases hd : last.action = .deleteFirst
    · rw [if_neg (by simpa using hd)]
      exact ⟨m, rfl, by simp [hd]⟩
    · rw [if_pos hd]
      exact ⟨final ((do setPattern (← readLine)) m), rfl, by rw [decide_eq_false hd, Bool.and_false]; rfl⟩
  obtain ⟨m₁, hm₁, hflag⟩ := hadvance
  let m' := m₁.facing m₁.outside.close
  refine ⟨m'.editor.pattern.isSome, m', ?_, hflag⟩
  rw [nextCycle_eq, bind_ok hm₁, bind_ok (closeOutput_facing m₁)]
  rfl

lemma flag_endCycle (t : Try) (m : Machine) :
    (∀ more m', endCycle t.command t.selected m = .ok more m' → m'.flag = (Happening.ending t).effect m.flag) ∧
      ∀ e m', endCycle t.command t.selected m = .error e m' → m'.flag = m.flag := by
  have hshow := steady_showCycle t.command m
  rw [endCycle]
  cases h : showCycle t.command m with
  | error e m₁ =>
    rw [h] at hshow
    rw [bind_error h]
    constructor
    · intro more m' ho
      cases ho
    · intro e m' he
      cases he
      exact hshow
  | ok _ m₁ =>
    rw [h] at hshow
    rw [bind_ok h, ← show m₁.flag = m.flag from hshow]
    simp only [Happening.effect, Happening.replaces, Happening.asksLine, Happening.takesFlag, Try.endsLine]
    split <;> rename_i hquit
    · constructor
      · intro more m' ho
        cases ho
        simp [hquit]
      · intro e m' he
        cases he
    · obtain ⟨more, m₂, hnext, hflag⟩ := flag_nextCycle t.command m₁
      rw [hnext]
      constructor
      · intro more m' ho
        cases ho
        simpa [hquit] using hflag
      · intro e m' he
        cases he

lemma flag_start {more : Bool} (h : start p source destination m = .ok more m') : m'.flag = false := by
  obtain ⟨lines, hs⟩ := lines_of_start h
  rw [start_eq hs] at h
  obtain ⟨_, m₁, -, h⟩ := Outcome.bind_eq_ok.1 h
  cases h
  rfl

lemma replacedSince_concat {log : List Happening} {h : Happening} :
    ReplacedSince (log ++ [h]) ↔
      h.replaces = true ∨ ReplacedSince log ∧ h.asksLine = false ∧ h.takesFlag = false := by
  constructor
  · rintro ⟨before, h', after, hlog, hr, hafter⟩
    cases after using List.reverseRecOn with
    | nil =>
      obtain ⟨-, hh⟩ := List.append_inj' hlog rfl
      cases hh
      exact .inl hr
    | append_singleton after last =>
      rw [← List.cons_append, ← List.append_assoc] at hlog
      obtain ⟨rfl, hh⟩ := List.append_inj' hlog rfl
      cases hh
      exact .inr ⟨⟨before, h', after, rfl, hr, fun x hx => hafter x (by simp [hx])⟩, hafter h (by simp)⟩
  · rintro (hr | ⟨⟨before, h', after, rfl, hr, hafter⟩, hh⟩)
    · exact ⟨log, h, [], rfl, hr, by simp⟩
    · refine ⟨before, h', after ++ [h], by simp, hr, fun x hx => ?_⟩
      rcases List.mem_append.1 hx with hx | hx
      · exact hafter x hx
      · rw [List.mem_singleton.1 hx]
        exact hh

lemma replacedSince_step {log : List Happening} (h : Happening) {flag : Bool} (hlog : flag = true ↔ ReplacedSince log) :
    h.effect flag = true ↔ ReplacedSince (log ++ [h]) := by
  rw [replacedSince_concat, ← hlog, Happening.effect]
  simp

lemma Story.flag_iff {log : List Happening} {stage : Stage} (h : Story p source destination m log stage m') :
    m'.flag = true ↔ ReplacedSince log := by
  induction h with
  | opened hs =>
    rw [flag_start hs, ← List.nil_append [Happening.opening], replacedSince_concat]
    simp [Happening.replaces, Happening.asksLine]
  | tried _ ht ih =>
    rw [ht.flag]
    exact replacedSince_step _ ih
  | @ended log m₁ m₂ t more _ he ih =>
    rw [(flag_endCycle t m₁).1 more m₂ he]
    exact replacedSince_step _ ih
  | @undecided log i m₁ m₂ c e _ _ hs ih =>
    have hflag := steady_selected i c m₁
    rw [hs] at hflag
    rwa [← hflag] at ih
  | @failed log i m₁ m₂ m₃ c e _ _ hs hp ih =>
    rw [(turns_perform i c m₂).2 e m₃ hp]
    rw [← flag_of_selected hs] at ih
    exact replacedSince_step _ ih
  | @unended log m₁ m₂ t e _ he ih => rwa [(flag_endCycle t m₁).2 e m₂ he]

lemma story_turn {log : List Happening} (h : Story p source destination m log (.before i) m') :
    ∃ log' stage, Story p source destination m log' stage (final (turn p i m')) ∧
      ∀ j m₁, turn p i m' = .ok (some j) m₁ → stage = .before j := by
  cases hc : p[i]? with
  | none =>
    have hturn : turn p i m' = .ok none m' := by
      rw [turn, hc]
      rfl
    rw [hturn]
    exact ⟨log, _, h, by simp⟩
  | some c =>
    have hattempt {selected : Bool} {flow : Flow} {m₁ m₂ : Machine} (hs : c.selected i m' = .ok selected m₁)
        (ha : c.attempt i m' = .ok (selected, flow) m₂) :
        ∃ log' stage, Story p source destination m log' stage (final (turn p i m')) ∧
          ∀ j m₃, turn p i m' = .ok (some j) m₃ → stage = .before j := by
      have hrecord : record c selected m₂ = .ok () (final (record c selected m₂)) := rfl
      have htried := h.tried (t := ⟨i, c, selected, m₁⟩) ⟨rfl, hc, hs, flow, m₂, ha, hrecord, rfl⟩
      rw [turn_eq hc ha hrecord]
      cases hf : c.follow flow with
      | some j =>
        rw [hf] at htried
        refine ⟨_, _, htried, fun j' m₃ ho => ?_⟩
        cases ho
        rfl
      | none =>
        rw [hf] at htried
        dsimp only
        cases he : endCycle c selected (final (record c selected m₂)) with
        | error e m₃ =>
          rw [bind_error he]
          exact ⟨_, _, htried.unended he, by simp⟩
        | ok more m₃ =>
          rw [bind_ok he]
          cases more with
          | false =>
            refine ⟨_, _, htried.ended he, fun j m₄ ho => ?_⟩
            cases ho
          | true =>
            refine ⟨_, _, htried.ended he, fun j m₄ ho => ?_⟩
            cases ho
            rfl
    cases hs : c.selected i m' with
    | error e m₁ =>
      have hturn : turn p i m' = .error e m₁ := by
        rw [turn, hc]
        exact bind_error (bind_error hs)
      rw [hturn]
      exact ⟨log, _, h.undecided hc hs, by simp⟩
    | ok found m₁ =>
      cases found with
      | false => exact hattempt hs (bind_ok hs)
      | true =>
        cases hp : c.perform i m₁ with
        | error e m₂ =>
          have hturn : turn p i m' = .error e m₂ := by
            rw [turn, hc]
            exact bind_error ((bind_ok hs).trans (bind_error hp))
          rw [hturn]
          exact ⟨_, _, h.failed hc hs hp, by simp⟩
        | ok flow m₂ => exact hattempt hs ((bind_ok hs).trans (bind_ok hp))

lemma story_runFrom {log : List Happening} (h : Story p source destination m log (.before i) m') (budget : Nat) :
    ∃ log' stage, Story p source destination m log' stage (final (runFrom p budget i m')) := by
  induction budget generalizing log i m' with
  | zero => exact ⟨log, _, h⟩
  | succ budget ih =>
    obtain ⟨log', stage, hstory, hstage⟩ := story_turn h
    rw [runFrom]
    cases ht : turn p i m' with
    | error e m₁ =>
      rw [ht] at hstory
      rw [bind_error ht]
      exact ⟨_, _, hstory⟩
    | ok next m₁ =>
      rw [ht] at hstory
      rw [bind_ok ht]
      cases next with
      | none => exact ⟨_, _, hstory⟩
      | some j =>
        rw [hstage j m₁ ht] at hstory
        exact ih hstory

lemma story_apply {more : Bool} (hm : m.editor.program = some p) (hs : start p source destination m = .ok more m')
    (budget : Nat) : ∃ log stage, Story p source destination m log stage (final (apply budget source destination m)) := by
  rw [apply_eq hm, bind_ok hs]
  cases more with
  | false => exact ⟨_, _, .opened hs⟩
  | true => exact story_runFrom (.opened hs) budget

lemma space_of_selected {c : Command} {found : Bool} (h : c.selected i m = .ok found m') : m'.space = m.space := by
  refine (within_selected i c).keeps (g := Machine.space) (fun m₁ m₂ hl => ?_) m found m' h
  obtain ⟨x, ranges, rfl⟩ := hl.exists_eq
  rfl

lemma flow_of_test {c : Command} {label : Text} {flow : Flow} (hc : c.action = .test label)
    (h : c.attempt i m = .ok (true, flow) m') : flow = .branch ↔ m.flag = true := by
  obtain ⟨m₁, hs, hp⟩ := of_attempt h
  obtain ⟨m₂, ho, -⟩ := perform_test (i := i) (m := m₁) hc
  rw [← flag_of_selected hs]
  cases ho.symm.trans hp
  split <;> simp_all

lemma flag_of_substitute {c : Command} {s : Substitution} {selected : Bool} {flow : Flow}
    (hc : c.action = .substitute s) (h : c.attempt i m = .ok (selected, flow) m') (hm : m.flag = true) :
    m'.flag = true := by
  obtain ⟨m₁, hs, hp⟩ := of_attempt h
  rw [← flag_of_selected hs] at hm
  cases selected with
  | false =>
    cases hp
    exact hm
  | true =>
    rw [(turns_substitute hc).1 flow m' hp, hm]
    rfl

-- Deleting a first line asks for no other line, neither when it is done nor at the end of the cycle.
lemma flag_of_turn_deleteFirst {c : Command} {next : Option Nat} (hi : p[i]? = some c) (hc : c.action = .deleteFirst)
    (hspace : '\n' ∈ m.space) (h : turn p i m = .ok next m') : m'.flag = m.flag := by
  have htry {t : Try} {next : Option Nat} {m₁ : Machine} (htc : t.command = c) (ht : Trying p i m t next m₁) :
      m₁.flag = m.flag := by
    rw [ht.flag]
    simp [Happening.effect, Happening.replaces, Happening.asksLine, Happening.takesFlag, Try.replaces, Try.asksLine,
      Try.takesFlag, htc, hc, space_of_selected ht.decided, hspace]
  obtain ⟨t, htc, ⟨j, -, ht⟩ | ⟨m₁, more, ht, he, -⟩⟩ := trying_of_turn hi h
  · exact htry htc ht
  · rw [← htc] at he
    rw [(flag_endCycle t m₁).1 more m' he, htry htc ht]
    simp [Happening.effect, Happening.replaces, Happening.asksLine, Happening.takesFlag, Try.endsLine, htc, hc]

end

/-- In every state of a run the flag tells whether a substitution has replaced something since a line was asked for
and since a test has taken the flag. So a test that is done branches exactly if there was such a substitution, no
substitution clears the flag, and deleting a first line of several keeps it. -/
theorem flag_tells_replacement (p : Program) (source : Source) (destination : Destination) (m : Machine) :
    (∀ more m₁ budget, m.editor.program = some p → start p source destination m = .ok more m₁ →
      ∃ log stage, Story p source destination m log stage (final (apply budget source destination m))) ∧
    ∀ log stage m', Story p source destination m log stage m' →
      (m'.flag = true ↔ ReplacedSince log) ∧
      ∀ i c, stage = .before i → p[i]? = some c →
        (∀ label flow m₁, c.action = .test label → c.attempt i m' = .ok (true, flow) m₁ →
          (flow = .branch ↔ ReplacedSince log)) ∧
        (∀ s selected flow m₁, c.action = .substitute s → c.attempt i m' = .ok (selected, flow) m₁ →
          ReplacedSince log → m₁.flag = true) ∧
        ∀ next m₁, c.action = .deleteFirst → '\n' ∈ m'.space → turn p i m' = .ok next m₁ → m₁.flag = m'.flag := by
  refine ⟨fun more m₁ budget hm hs => story_apply hm hs budget, fun log stage m' h => ⟨h.flag_iff, ?_⟩⟩
  rintro i c rfl hi
  refine ⟨?_, ?_, ?_⟩
  · intro label flow m₁ hc ha
    rw [flow_of_test hc ha, h.flag_iff]
  · intro s selected flow m₁ hc ha hr
    exact flag_of_substitute hc ha (h.flag_iff.2 hr)
  · intro next m₁ hc hspace ht
    exact flag_of_turn_deleteFirst hi hc hspace ht

def sampleReplace (number : Nat) (old new : Char) (next : Nat) : Command :=
  ⟨number, none, none, false, .substitute ⟨some [old], [new], 1, false, false, false, [],
    .own ⟨[old], false, some (.char old)⟩⟩, some next, none⟩

def sampleTest : Command := ⟨3, none, none, false, .test [], none, none⟩

def sampleReplacing : Program := [sampleReplace 1 'a' 'b' 1, sampleReplace 2 'c' 'd' 2, sampleTest]

theorem flag_tells_replacement_sampleReplacing :
    (result? (Script.program [['s', '/', 'a', '/', 'b', '/'], ['s', '/', 'c', '/', 'd', '/'], ['t']] 1)).map
        (fun p => (p.prepare ⟨false, false⟩).value) = some sampleReplacing ∧
      ∃ (m m₁ m₂ : Machine) (t t' : Try), m.editor.program = some sampleReplacing ∧
        Story sampleReplacing (.text ['a']) .nowhere m [.opening, .trying t, .trying t'] (.before 2) m₁ ∧
        t.replaces = true ∧ t'.replaces = false ∧ m₁.flag = true ∧
        sampleTest.attempt 2 m₁ = .ok (true, .branch) m₂ ∧
        ReplacedSince [.opening, .trying t, .trying t'] := by
  let m : Machine := ⟨{ program := some sampleReplacing }, [], 1, false, #[], 0⟩
  let first := final (start sampleReplacing (.text ['a']) .nowhere m)
  let t : Try := ⟨0, sampleReplace 1 'a' 'b' 1, true, first⟩
  let second := final (record t.command true (final (t.command.attempt 0 first)))
  let t' : Try := ⟨1, sampleReplace 2 'c' 'd' 2, true, second⟩
  let third := final (record t'.command true (final (t'.command.attempt 1 second)))
  have hfirst : t.command.attempt 0 first = .ok (true, .onward) _ := eq_ok_of_result? (by decide +kernel)
  have hsecond : t'.command.attempt 1 second = .ok (true, .onward) _ := eq_ok_of_result? (by decide +kernel)
  have hthird : sampleTest.attempt 2 third = .ok (true, .branch) _ := eq_ok_of_result? (by decide +kernel)
  have ht : Trying sampleReplacing 0 first t (some 1) second := ⟨rfl, rfl, rfl, .onward, _, hfirst, rfl, rfl⟩
  have ht' : Trying sampleReplacing 1 second t' (some 2) third := ⟨rfl, rfl, rfl, .onward, _, hsecond, rfl, rfl⟩
  have hstart : start sampleReplacing (.text ['a']) .nowhere m = .ok true first := rfl
  have hopened : Story sampleReplacing (.text ['a']) .nowhere m [.opening] (.before 0) first := .opened hstart
  have hstory : Story sampleReplacing (.text ['a']) .nowhere m [.opening, .trying t, .trying t'] (.before 2) third :=
    (hopened.tried ht).tried ht'
  obtain ⟨hflag, htest⟩ := (flag_tells_replacement sampleReplacing (.text ['a']) .nowhere m).2 _ _ _ hstory
  have hsince := ((htest 2 sampleTest rfl rfl).1 [] .branch _ rfl hthird).1 rfl
  exact ⟨by decide +kernel, m, third, _, t, t', rfl, hstory, by decide +kernel, by decide +kernel, hflag.2 hsince, hthird,
    hsince⟩

end StreamEditor
