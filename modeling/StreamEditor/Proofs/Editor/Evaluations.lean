import StreamEditor.Proofs.Editor.Safety
import StreamEditor.Proofs.Output.Shown
import StreamEditor.Proofs.Range.Try

/-! Evaluations of regexps. A run evaluates the regexps of addresses and substitutions in an order of its own, which is
kept in a log, and recalls the last one of them that is not empty. -/

namespace StreamEditor

open Edit Outcome

inductive Evaluator where
  | address (a : Address)
  | substitution (s : Substitution)

def Regexp.searching (x : Regexp) : Edit Bool := do
  match x.search (← Edit.pattern) with
  | .ok found => return found
  | .error e => throw (.ofRegex e)

namespace Evaluator

def written : Evaluator → Option Regexp
  | address (.regexp _ _ prepared) => prepared
  | address _ => none
  | substitution s =>
    match s.target with
    | .own x => some x
    | _ => none

def evaluates : Evaluator → Bool
  | address (.regexp ..) => true
  | address _ => false
  | substitution s => s.target ≠ .pending

def Uses (x : Regexp) (m : Machine) : Evaluator → Prop
  | address a => a.selects m = x.searching (m.recalling (some x))
  | substitution s => s.execute m = s.replace x (m.recalling (some x))

def Fails (m : Machine) : Evaluator → Prop
  | address a => a.selects m = .error (.fault .emptyRegexp) m
  | substitution s => s.execute m = .error (.fault .emptyRegexp) m

end Evaluator

structure Evaluation where
  position : Nat
  evaluator : Evaluator
  state : Machine

abbrev Evaluation.written (e : Evaluation) : Option Regexp := e.evaluator.written

def lastWritten (log : List Evaluation) : Option Regexp := (log.filterMap (·.written)).getLast?

def Evaluator.log (i : Nat) (m : Machine) (v : Evaluator) : List Evaluation := if v.evaluates then [⟨i, v, m⟩] else []

def Action.evaluator? : Action → Option Evaluator
  | .substitute s => some (.substitution s)
  | _ => none

namespace Command

/-- The address that is looked at; of two it is the second one inside of a range. -/
def lookedAt (i : Nat) (c : Command) (m : Machine) : Option Address :=
  match c.first, c.second with
  | some a, some b => some (if m.editor.ranges.contains i then b else a)
  | first, _ => first

def evaluations (i : Nat) (c : Command) (m : Machine) : List Evaluation :=
  (c.lookedAt i m).elim [] (fun a => (Evaluator.address a).log i m) ++
    match c.selected i m with
    | .ok true m' => c.action.evaluator?.elim [] (·.log i m')
    | _ => []

end Command

def Program.evaluations (p : Program) : Nat → Nat → Machine → List Evaluation
  | 0, _, _ => []
  | budget + 1, i, m =>
    p[i]?.elim [] (·.evaluations i m) ++
      match turn p i m with
      | .ok (some j) m' => evaluations p budget j m'
      | _ => []

structure Application where
  budget : Nat
  source : Source
  destination : Destination

namespace Application

def run (a : Application) : Edit Unit := apply a.budget a.source a.destination

def evaluations (a : Application) (m : Machine) : List Evaluation :=
  match m.editor.program with
  | none => []
  | some p =>
    match start p a.source a.destination m with
    | .ok true m' => p.evaluations a.budget 0 m'
    | _ => []

end Application

def Machine.after (m : Machine) : List Application → Machine
  | [] => m
  | a :: as => (final (a.run m)).after as

def Machine.evaluations (m : Machine) : List Application → List Evaluation
  | [] => []
  | a :: as => a.evaluations m ++ (final (a.run m)).evaluations as

lemma lastWritten_append (log log' : List Evaluation) :
    lastWritten (log ++ log') = (lastWritten log').or (lastWritten log) := by
  rw [lastWritten, List.filterMap_append, List.getLast?_append]
  rfl

def Evaluation.Unmet (e : Evaluation) : Prop := e.written.or e.state.editor.lastRegexp = none

structure Logs {α : Type} (x : Edit α) (m : Machine) (log : List Evaluation) : Prop where
  recalled : (final (x m)).editor.lastRegexp = (lastWritten log).or m.editor.lastRegexp
  states : ∀ before e after, log = before ++ e :: after →
    e.state.editor.lastRegexp = (lastWritten before).or m.editor.lastRegexp
  fails : failure? (x m) = some (.fault .emptyRegexp) ↔ ∃ e ∈ log, e.Unmet

def Silent {α : Type} (x : Edit α) : Prop := ∀ m, Logs x m []

section

variable {α β : Type} {x : Edit α} {f : α → Edit β} {m m' : Machine} {log log' : List Evaluation}

lemma Logs.andThen {a : α} (h : Logs x m log) (hx : x m = .ok a m') (hf : Logs (f a) m' log') :
    Logs (x >>= f) m (log ++ log') := by
  have hlast : m'.editor.lastRegexp = (lastWritten log).or m.editor.lastRegexp := by
    have hrecalled := h.recalled
    rwa [hx] at hrecalled
  have hmet : ¬∃ e ∈ log, e.Unmet := by
    rw [← h.fails, hx]
    exact Option.some_ne_none _ ∘ Eq.symm
  refine ⟨?_, ?_, ?_⟩
  · rw [bind_ok hx, hf.recalled, hlast, lastWritten_append, Option.or_assoc]
  · intro before e after hlog
    rcases List.append_eq_append_iff.1 hlog with ⟨mid, rfl, hmid⟩ | ⟨mid, rfl, hmid⟩
    · rw [hf.states mid e after hmid, hlast, lastWritten_append, Option.or_assoc]
    · cases mid with
      | nil =>
        rw [List.append_nil] at hlast
        rw [hf.states [] e after hmid.symm, hlast]
        rfl
      | cons e' mid =>
        cases hmid
        exact h.states before e mid rfl
  · rw [bind_ok hx, hf.fails]
    simp only [List.mem_append, or_and_right, exists_or, hmet, false_or]

lemma Logs.failed {e : Failure} (h : Logs x m log) (hx : x m = .error e m') : Logs (x >>= f) m log := by
  have hbind : (x >>= f) m = .error e m' := bind_error hx
  have hrecalled := h.recalled
  have hfails := h.fails
  rw [hx] at hrecalled hfails
  refine ⟨?_, h.states, ?_⟩
  · rw [hbind]
    exact hrecalled
  · rw [hbind]
    exact hfails

lemma Logs.after {a : α} (hx : Silent x) (h : x m = .ok a m') (hf : Logs (f a) m' log) : Logs (x >>= f) m log :=
  (hx m).andThen h hf

lemma Logs.silently (h : Logs x m log) (hf : ∀ a, Silent (f a)) : Logs (x >>= f) m log := by
  cases hx : x m with
  | error e m' => exact h.failed hx
  | ok a m' => exact List.append_nil log ▸ h.andThen hx (hf a m')

end

namespace Silent

variable {α β : Type} {x : Edit α}

lemma of_kept (hm : ∀ m, (final (x m)).editor.lastRegexp = m.editor.lastRegexp)
    (he : ∀ m, failure? (x m) ≠ some (.fault .emptyRegexp)) : Silent x := by
  intro m
  refine ⟨hm m, ?_, ?_⟩
  · intro before e after h
    simp at h
  · simp [he m]

lemma pure (a : α) : Silent (pure a : Edit α) := of_kept (fun _ => rfl) fun _ h => by cases h

lemma throw {e : Failure} (he : e ≠ .fault .emptyRegexp) : Silent (throw e : Edit α) :=
  of_kept (fun _ => rfl) fun _ h => he (Option.some.inj h)

lemma get : Silent (get : Edit Machine) := of_kept (fun _ => rfl) fun _ h => by cases h

lemma modify {g : Machine → Machine} (hg : ∀ m, (g m).editor.lastRegexp = m.editor.lastRegexp) :
    Silent (modify g : Edit Unit) :=
  of_kept hg fun _ h => by cases h

lemma update {g : Editor → Editor} (hg : ∀ e, (g e).lastRegexp = e.lastRegexp) : Silent (update g) :=
  modify fun m => hg m.editor

lemma lift {r : Except Failure α} (hr : r ≠ .error (.fault .emptyRegexp)) : Silent (lift r) := by
  cases r with
  | ok a => exact pure a
  | error e => exact throw fun he => hr (he ▸ rfl)

lemma bind {f : α → Edit β} (hx : Silent x) (hf : ∀ a, Silent (f a)) : Silent (x >>= f) := fun m => (hx m).silently hf

lemma forM {τ : Type} {act : τ → Edit PUnit} (h : ∀ t, Silent (act t)) (ts : List τ) : Silent (ts.forM act) := by
  induction ts with
  | nil => exact pure _
  | cons t ts ih => exact bind (h t) fun _ => ih

end Silent

lemma silent_editor : Silent editor := .bind .get fun _ => .pure _

lemma silent_pattern : Silent Edit.pattern := .bind silent_editor fun _ => .pure _

lemma silent_setPattern (t : Option Text) : Silent (setPattern t) := .update fun _ => rfl

lemma silent_readLine : Silent readLine := .bind silent_editor fun _ => .bind (.update fun _ => rfl) fun _ => .pure _

lemma silent_print (t : Text) : Silent (print t) := by
  refine .bind (.update fun _ => rfl) fun _ => .bind silent_editor fun e => ?_
  cases e.output with
  | silent | stream => exact .pure _
  | file name closed written =>
    dsimp only
    split
    · exact .throw (by simp)
    · split
      · exact .throw (by simp)
      · exact .update fun _ => rfl

lemma locate_ne_fault (path : Text) (f : Fault) : Store.locate path ≠ .error (.fault f) := by
  rw [Store.locate]
  repeat' split
  all_goals simp

lemma read_ne_fault (s : Store) (path : Text) (f : Fault) : s.read path ≠ .error (.fault f) := by
  intro hf
  rw [Store.read] at hf
  cases h : Store.locate path with
  | ok name =>
    rw [h] at hf
    dsimp only [bind, Except.bind] at hf
    split at hf <;> cases hf
  | error e =>
    rw [h] at hf
    cases hf
    exact locate_ne_fault path f h

lemma append_ne_fault (s : Store) (path : Text) (bytes : Bytes) (f : Fault) :
    s.append path bytes ≠ .error (.fault f) := by
  intro hf
  rw [Store.append] at hf
  cases h : Store.locate path with
  | ok name =>
    rw [h] at hf
    cases hf
  | error e =>
    rw [h] at hf
    cases hf
    exact locate_ne_fault path f h

lemma silent_writeFile (name line : Text) : Silent (writeFile name line) :=
  .bind .get fun m => .bind (.lift (append_ne_fault m.store name _ _)) fun _ => .modify fun _ => rfl

lemma silent_closeOutput : Silent closeOutput := by
  refine .bind silent_editor fun e => ?_
  split
  · exact .modify fun _ => rfl
  · exact .pure _

lemma silent_transliteration (y : Transliteration) : Silent y.execute := by
  refine .bind silent_pattern fun t => ?_
  split
  · exact silent_setPattern _
  · split
    · exact .pure _
    · exact .throw (by simp)

lemma silent_perform {c : Command} (hc : c.action.evaluator? = none) (i : Nat) : Silent (c.perform i) := by
  rw [Command.perform]
  cases ha : c.action with
  | openBlock | branch label | closeBlock | label name | quit => exact .pure _
  | append t => exact .bind (.update fun _ => rfl) fun _ => .pure _
  | change t =>
    have hstop : Silent (do setPattern none; return Flow.stop : Edit Flow) :=
      .bind (silent_setPattern none) fun _ => .pure _
    refine .bind silent_editor fun e => ?_
    dsimp only
    split
    · exact .bind (silent_print t) fun _ => hstop
    · exact hstop
  | delete => exact .bind (silent_setPattern none) fun _ => .pure _
  | deleteFirst =>
    refine .bind silent_pattern fun t => ?_
    dsimp only
    split
    · exact .bind (silent_setPattern _) fun _ => .pure _
    · exact .bind (silent_setPattern _) fun _ =>
        .bind silent_readLine fun l => .bind (silent_setPattern l) fun _ => .pure _
  | lineNumber => exact .bind silent_editor fun _ => .bind (silent_print _) fun _ => .pure _
  | get => exact .bind silent_editor fun _ => .bind (silent_setPattern _) fun _ => .pure _
  | getAppend =>
    exact .bind silent_pattern fun _ => .bind silent_editor fun _ => .bind (silent_setPattern _) fun _ => .pure _
  | hold | holdAppend | exchange => exact .bind silent_pattern fun _ => .bind (.update fun _ => rfl) fun _ => .pure _
  | insert t => exact .bind (silent_print t) fun _ => .pure _
  | list => exact .bind silent_pattern fun _ => .bind (.forM silent_print _) fun _ => .pure _
  | next =>
    have htake : Silent takeLine := .bind silent_readLine fun l => .bind (silent_setPattern l) fun _ => .pure _
    refine .bind silent_editor fun e => ?_
    dsimp only
    split
    · exact .bind silent_pattern fun t => .bind (silent_print t) fun _ => htake
    · exact htake
  | nextAppend =>
    refine .bind silent_readLine fun l => ?_
    cases l with
    | none => exact .pure _
    | some line => exact .bind silent_pattern fun _ => .bind (silent_setPattern _) fun _ => .pure _
  | print | printFirst => exact .bind silent_pattern fun _ => .bind (silent_print _) fun _ => .pure _
  | read file => exact .bind .get fun _ => .bind (.update fun _ => rfl) fun _ => .pure _
  | test label =>
    refine .bind silent_editor fun e => ?_
    split
    · exact .bind (.update fun _ => rfl) fun _ => .pure _
    · exact .pure _
  | write file => exact .bind silent_pattern fun t => .bind (silent_writeFile file t) fun _ => .pure _
  | transliterate y => exact .bind (silent_transliteration y) fun _ => .pure _
  | substitute s =>
    rw [ha] at hc
    cases hc

lemma silent_record (c : Command) (selected : Bool) : Silent (record c selected) := by
  refine .modify fun m => ?_
  split <;> rfl

lemma silent_endCycle (last : Command) (selected : Bool) : Silent (endCycle last selected) := by
  have hflush : Silent flushQueue :=
    .bind silent_editor fun _ => .bind (.forM silent_print _) fun _ => .update fun _ => rfl
  have hshow : Silent (showCycle last) := by
    refine .bind silent_editor fun e => ?_
    dsimp only
    split
    · refine .bind ?_ fun _ => hflush
      cases e.pattern with
      | none => exact .pure _
      | some t => exact silent_print t
    · exact hflush
  have hmore : Silent (do closeOutput; return (← editor).pattern.isSome : Edit Bool) :=
    .bind silent_closeOutput fun _ => .bind silent_editor fun _ => .pure _
  refine .bind hshow fun _ => ?_
  split
  · exact .pure _
  · rw [nextCycle]
    split
    · exact .bind silent_readLine fun l => .bind (silent_setPattern l) fun _ => hmore
    · exact hmore

lemma silent_start (p : Program) (source : Source) (destination : Destination) :
    Silent (start p source destination) := by
  have hlines (store : Store) : source.lines store ≠ .error (.fault .emptyRegexp) := by
    intro h
    cases source with
    | text t => cases h
    | file name =>
      rw [Source.lines] at h
      split at h
      · cases h
      · rename_i e he
        split at h
        · cases h
        · cases h
          exact read_ne_fault store name _ he
  have hopen : Silent (openOutput destination) := by
    cases destination with
    | nowhere | stream =>
      rw [openOutput]
      exact .update fun _ => rfl
    | file name => exact .bind (.lift (locate_ne_fault name _)) fun _ => .modify fun _ => rfl
  exact .bind .get fun m => .bind (.lift (hlines m.store)) fun _ => .bind (.update fun _ => rfl) fun _ =>
    .bind hopen fun _ => .bind silent_readLine fun l => .bind (silent_setPattern l) fun _ => .pure _

section

variable {m : Machine}

lemma ofRegex_ne_fault (e : Regex.Error) (f : Fault) : Failure.ofRegex e ≠ .fault f := by
  cases e <;> simp [Failure.ofRegex]

lemma silent_searching (x : Regexp) : Silent x.searching := by
  refine .bind silent_pattern fun t => ?_
  split
  · exact .pure _
  · exact .throw (ofRegex_ne_fault _ _)

lemma substitute?_ne_fault (x : Regexp) (template : Text) (count : Nat) (subject : Text) (f : Fault) :
    x.substitute? template count subject ≠ .error (.fault f) := by
  rw [Regexp.substitute?]
  cases x.regex with
  | error e =>
    intro h
    exact ofRegex_ne_fault e f (Except.error.inj h)
  | ok r =>
    dsimp only
    repeat' split
    all_goals simp

lemma silent_replace (s : Substitution) (x : Regexp) : Silent (s.replace x) := by
  refine .bind silent_pattern fun t => .bind (.lift (substitute?_ne_fault x _ _ t _)) fun made => ?_
  cases made with
  | none => exact .pure _
  | some t =>
    have hwrite : Silent (if s.write then writeFile s.file t else pure () : Edit Unit) := by
      split
      · exact silent_writeFile s.file t
      · exact .pure _
    refine .bind (.update fun _ => rfl) fun _ => ?_
    dsimp only
    split
    · exact .bind (silent_print t) fun _ => hwrite
    · exact hwrite

lemma Logs.single {α : Type} {x : Edit α} {e : Evaluation} (he : e.state = m)
    (hlast : (final (x m)).editor.lastRegexp = e.written.or m.editor.lastRegexp)
    (hfails : failure? (x m) = some (.fault .emptyRegexp) ↔ e.Unmet) : Logs x m [e] := by
  have hwritten : lastWritten [e] = e.written := by
    cases h : e.written <;> simp [lastWritten, h]
  refine ⟨hwritten ▸ hlast, ?_, by simpa using hfails⟩
  intro before e' after h
  obtain ⟨rfl, hsame⟩ | ⟨_, h⟩ := List.singleton_eq_append_iff.1 h
  · cases hsame
    rw [he]
    rfl
  · cases h

lemma useRegexp_eq_ok {w : Option Regexp} {x : Regexp} (h : w.or m.editor.lastRegexp = some x) :
    useRegexp w m = .ok x (m.recalling (some x)) := by
  cases w with
  | some y =>
    cases h
    rfl
  | none =>
    have hlast : m.editor.lastRegexp = some x := h
    have hsame : m.recalling (some x) = m := by rw [← hlast]
    rw [useRegexp, bind_ok (show editor m = .ok m.editor m from rfl), hlast, hsame]
    rfl

lemma useRegexp_eq_error {w : Option Regexp} (h : w.or m.editor.lastRegexp = none) :
    useRegexp w m = .error (.fault .emptyRegexp) m := by
  obtain ⟨rfl, hlast⟩ := Option.or_eq_none_iff.1 h
  rw [useRegexp, bind_ok (show editor m = .ok m.editor m from rfl), hlast]
  rfl

lemma logs_useRegexp {e : Evaluation} (he : e.state = m) : Logs (useRegexp e.written) m [e] := by
  subst he
  cases h : e.written.or e.state.editor.lastRegexp with
  | some x =>
    have huse := useRegexp_eq_ok h
    refine .single rfl (by rw [huse, h]; rfl) ?_
    rw [huse, Evaluation.Unmet, h]
    simp [failure?]
  | none =>
    have huse := useRegexp_eq_error h
    refine .single rfl (by rw [huse, h]; exact (Option.or_eq_none_iff.1 h).2) ?_
    rw [huse, Evaluation.Unmet, h]
    simp [failure?]

lemma logs_selects (a : Address) (i : Nat) (m : Machine) : Logs a.selects m ((Evaluator.address a).log i m) := by
  cases a with
  | line n => exact Silent.bind silent_editor (fun _ => .pure _) m
  | last => exact Silent.bind silent_editor (fun _ => .pure _) m
  | regexp source ignoreCase prepared =>
    exact (logs_useRegexp (e := ⟨i, .address (.regexp source ignoreCase prepared), m⟩) rfl).silently silent_searching

lemma logs_inRange (i : Nat) (a b : Address) (m : Machine) :
    Logs (Command.inRange i a b) m ((Evaluator.address (if m.editor.ranges.contains i then b else a)).log i m) := by
  refine .after silent_editor (show editor m = .ok m.editor m from rfl) ?_
  cases m.editor.ranges.contains i with
  | true =>
    refine (logs_selects b i m).silently fun found => ?_
    cases found with
    | true => exact .bind (.update fun _ => rfl) fun _ => .pure _
    | false => exact .pure _
  | false =>
    refine (logs_selects a i m).silently fun found => ?_
    cases found with
    | true => exact .bind (.update fun _ => rfl) fun _ => .pure _
    | false => exact .pure _

lemma logs_selected (i : Nat) (c : Command) (m : Machine) :
    Logs (c.selected i) m ((c.lookedAt i m).elim [] fun a => (Evaluator.address a).log i m) := by
  rw [Command.selected, Command.lookedAt]
  cases c.first with
  | none => exact Silent.pure _ m
  | some a =>
    cases c.second with
    | none => exact (logs_selects a i m).silently fun _ => .pure _
    | some b => exact (logs_inRange i a b m).silently fun _ => .pure _

lemma Substitution.execute_eq_use {s : Substitution} (hs : s.target ≠ .pending) :
    s.execute = (do s.replace (← useRegexp (Evaluator.substitution s).written)) := by
  rw [s.execute_eq, choose, Evaluator.written]
  cases ht : s.target with
  | pending => exact absurd ht hs
  | recalled | own x => rfl

lemma logs_substitution (s : Substitution) (i : Nat) (m : Machine) :
    Logs s.execute m ((Evaluator.substitution s).log i m) := by
  rw [Evaluator.log]
  by_cases hs : s.target = .pending
  · have hchoose : s.choose = throw .substitutionUnprepared := by rw [Substitution.choose, hs]
    rw [if_neg (by simp [Evaluator.evaluates, hs]), s.execute_eq, hchoose]
    exact Silent.bind (.throw (by simp)) (silent_replace s) m
  · rw [if_pos (by simpa [Evaluator.evaluates] using hs), Substitution.execute_eq_use hs]
    exact (logs_useRegexp (e := ⟨i, .substitution s, m⟩) rfl).silently (silent_replace s)

lemma logs_perform (i : Nat) (c : Command) (m : Machine) :
    Logs (c.perform i) m (c.action.evaluator?.elim [] (·.log i m)) := by
  cases ha : c.action with
  | substitute s =>
    rw [Command.perform, ha]
    exact (logs_substitution s i m).silently fun _ => .pure _
  | _ => exact silent_perform (by rw [ha]; rfl) i m

lemma logs_attempt (i : Nat) (c : Command) (m : Machine) : Logs (c.attempt i) m (c.evaluations i m) := by
  have hselected := logs_selected i c m
  rw [Command.evaluations]
  cases h : c.selected i m with
  | error e m' => exact List.append_nil _ ▸ hselected.failed h
  | ok selected m' =>
    refine hselected.andThen h ?_
    cases selected with
    | false => exact Silent.pure _ m'
    | true => exact (logs_perform i c m').silently fun _ => .pure _

lemma logs_turn (p : Program) (i : Nat) (m : Machine) : Logs (turn p i) m (p[i]?.elim [] (·.evaluations i m)) := by
  rw [turn]
  cases p[i]? with
  | none => exact Silent.pure _ m
  | some c =>
    refine (logs_attempt i c m).silently fun t => .bind (silent_record c t.1) fun _ => ?_
    cases c.follow t.2 with
    | some j => exact .pure _
    | none =>
      refine .bind (silent_endCycle c t.1) fun more => ?_
      split <;> exact .pure _

lemma logs_runFrom (p : Program) (budget i : Nat) (m : Machine) :
    Logs (runFrom p budget i) m (p.evaluations budget i m) := by
  induction budget generalizing i m with
  | zero => exact Silent.throw (by simp) m
  | succ budget ih =>
    have hturn := logs_turn p i m
    rw [Program.evaluations]
    cases h : turn p i m with
    | error e m' => exact List.append_nil _ ▸ hturn.failed h
    | ok next m' =>
      refine hturn.andThen h ?_
      cases next with
      | none => exact Silent.pure _ m'
      | some j => exact ih j m'

lemma logs_run (a : Application) (m : Machine) : Logs a.run m (a.evaluations m) := by
  refine .after silent_editor (show editor m = .ok m.editor m from rfl) ?_
  rw [Application.evaluations]
  cases m.editor.program with
  | none => exact Silent.throw (by simp) m
  | some p =>
    have hstart := silent_start p a.source a.destination
    dsimp only
    cases h : start p a.source a.destination m with
    | error e m' => exact (hstart m).failed h
    | ok more m' =>
      refine .after hstart h ?_
      cases more with
      | false => exact Silent.pure _ m'
      | true => exact logs_runFrom p a.budget 0 m'

lemma Machine.after_concat (m : Machine) (as : List Application) (a : Application) :
    m.after (as ++ [a]) = final (a.run (m.after as)) := by
  induction as generalizing m with
  | nil => rfl
  | cons b as ih => exact ih _

lemma lastRegexp_after (m : Machine) (as : List Application) :
    (m.after as).editor.lastRegexp = (lastWritten (m.evaluations as)).or m.editor.lastRegexp := by
  induction as generalizing m with
  | nil => rfl
  | cons a as ih =>
    rw [Machine.after, ih, (logs_run a m).recalled, Machine.evaluations, lastWritten_append, Option.or_assoc]

end

end StreamEditor
