import Mathlib.Logic.Relation
import StreamEditor.Editor.Run
import StreamEditor.Proofs.Outcome

/-! What trying commands and ending cycles can change in a machine, one small step at a time. -/

namespace StreamEditor

open Edit Outcome

-- Whatever the work comes to, it has gone from state to state by steps of a kind, and if it fails it is not
-- for lack of a budget.
structure Within {α : Type} (R : Machine → Machine → Prop) (x : Edit α) : Prop where
  steps (m : Machine) : Relation.ReflTransGen R m (final (x m))
  in_budget (m m' : Machine) : x m ≠ .error .outOfSteps m'

namespace Within

variable {α β : Type} {R R' : Machine → Machine → Prop} {x : Edit α} {m : Machine}

lemma of_ok (hs : ∀ m, Relation.ReflTransGen R m (final (x m))) (ho : ∀ m, ∃ a m', x m = .ok a m') :
    Within R x := by
  refine ⟨hs, fun m m' h => ?_⟩
  obtain ⟨a, m₁, ha⟩ := ho m
  rw [ha] at h
  cases h

lemma pure (a : α) : Within R (pure a : Edit α) := .of_ok (fun _ => .refl) fun m => ⟨a, m, rfl⟩

lemma throw {e : Failure} (he : e ≠ .outOfSteps) : Within R (throw e : Edit α) where
  steps _ := .refl
  in_budget m m' h := by
    cases h
    exact he rfl

lemma get : Within R (get : Edit Machine) := .of_ok (fun _ => .refl) fun m => ⟨m, m, rfl⟩

lemma modify {g : Machine → Machine} (h : ∀ m, Relation.ReflTransGen R m (g m)) :
    Within R (modify g : Edit PUnit) := .of_ok h fun m => ⟨⟨⟩, g m, rfl⟩

lemma bind {f : α → Edit β} (hx : Within R x) (hf : ∀ a, Within R (f a)) : Within R (x >>= f) := by
  refine ⟨fun m => ?_, fun m m' => ?_⟩
  · have h₁ := hx.steps m
    cases h : x m with
    | ok a m₁ =>
      rw [h] at h₁
      rw [bind_ok h]
      exact h₁.trans ((hf a).steps m₁)
    | error e m₁ =>
      rw [h] at h₁
      rwa [bind_error h]
  · cases h : x m with
    | ok a m₁ =>
      rw [bind_ok h]
      exact (hf a).in_budget m₁ m'
    | error e m₁ =>
      rw [bind_error h]
      intro he
      cases he
      exact hx.in_budget m _ h

lemma forM {τ : Type} {act : τ → Edit PUnit} (h : ∀ t, Within R (act t)) (ts : List τ) :
    Within R (ts.forM act) := by
  induction ts with
  | nil => exact .pure _
  | cons t ts ih => exact .bind (h t) fun _ => ih

lemma mono (hx : Within R x) (h : ∀ m m', R m m' → R' m m') : Within R' x :=
  ⟨fun m => (hx.steps m).lift id h, hx.in_budget⟩

lemma preserves (hx : Within R x) {P : Machine → Prop} (hP : ∀ m m', R m m' → P m → P m') (hm : P m) :
    P (final (x m)) := by
  have h := hx.steps m
  generalize final (x m) = m' at h ⊢
  induction h with
  | refl => exact hm
  | tail _ hr ih => exact hP _ _ hr ih

section

variable {γ : Type} {g : Machine → γ} (hg : ∀ m m', R m m' → g m' = g m)
include hg

lemma final_eq (hx : Within R x) (m : Machine) : g (final (x m)) = g m :=
  hx.preserves (P := fun m' => g m' = g m) (fun m₁ m₂ hr h => (hg m₁ m₂ hr).trans h) rfl

lemma keeps (hx : Within R x) : Keeps g x := by
  intro m a m' h
  have hs := hx.final_eq hg m
  rwa [h] at hs

end

end Within

inductive Recall (m : Machine) : Machine → Prop
  | mk (x : Regexp) : Recall m { m with editor := { m.editor with lastRegexp := some x } }

inductive Look (i : Nat) (m : Machine) : Machine → Prop
  | remember {m' : Machine} : Recall m m' → Look i m m'
  | enter : Look i m { m with editor := { m.editor with ranges := i :: m.editor.ranges } }
  | leave : Look i m { m with editor := { m.editor with ranges := m.editor.ranges.erase i } }

inductive Show (m : Machine) : Machine → Prop
  | line (t : Text) : Show m { m with editor := { m.editor with printed := m.editor.printed.push t } }
  | output (o : Output) : Show m { m with editor := { m.editor with output := o } }
  | store (s : Store) : Show m { m with store := s }

inductive WorkBy (S : Machine → Machine → Prop) (m : Machine) : Machine → Prop
  | remember {m' : Machine} : Recall m m' → WorkBy S m m'
  | display {m' : Machine} : S m m' → WorkBy S m m'
  | pattern (t : Option Text) : WorkBy S m { m with editor := { m.editor with pattern := t } }
  | hold (t : Text) : WorkBy S m { m with editor := { m.editor with hold := t } }
  | enqueue (ts : List Text) : WorkBy S m { m with editor := { m.editor with queue := m.editor.queue ++ ts } }
  | dequeue : WorkBy S m { m with editor := { m.editor with queue := [] } }
  | read : WorkBy S m { m with editor := { m.editor with
      reader := m.editor.reader.readLine.2, substituted := false,
      lineNumber := if m.editor.reader.readLine.1.isSome then m.editor.lineNumber + 1 else m.editor.lineNumber } }
  | substituted (b : Bool) : WorkBy S m { m with editor := { m.editor with substituted := b } }
  | trials (ts : Array Trial) : WorkBy S m { m with trials := ts }

abbrev Work := WorkBy Show

def MoveBy (S : Machine → Machine → Prop) (i : Nat) (m m' : Machine) : Prop := Look i m m' ∨ WorkBy S m m'

abbrev Move := MoveBy Show

def Action.written : Action → List Text
  | .write file => [file]
  | .substitute s => if s.write then [s.file] else []
  | _ => []

lemma Look.exists_eq {i : Nat} {m m' : Machine} (h : Look i m m') :
    ∃ x ranges, m' = { m with editor := { m.editor with lastRegexp := x, ranges } } := by
  cases h with
  | remember h =>
    cases h
    exact ⟨_, _, rfl⟩
  | enter | leave => exact ⟨_, _, rfl⟩

lemma MoveBy.display_or_same {S : Machine → Machine → Prop} {i : Nat} {m m' : Machine} (h : MoveBy S i m m') :
    S m m' ∨ m'.store = m.store ∧ m'.editor.output = m.editor.output := by
  rcases h with h | h
  · obtain ⟨x, ranges, rfl⟩ := h.exists_eq
    exact .inr ⟨rfl, rfl⟩
  · cases h with
    | remember h =>
      cases h
      exact .inr ⟨rfl, rfl⟩
    | display h => exact .inl h
    | _ => exact .inr ⟨rfl, rfl⟩

section

variable {R : Machine → Machine → Prop}

lemma within_editor : Within R editor := .bind .get fun _ => .pure _

lemma within_pattern : Within R Edit.pattern := .bind within_editor fun _ => .pure _

lemma within_lift {α : Type} {r : Except Failure α} (h : r ≠ .error .outOfSteps) : Within R (lift r) := by
  cases r with
  | ok a => exact .pure a
  | error e =>
    refine .throw ?_
    rintro rfl
    exact h rfl

end

section

variable (x : Regexp) (path template subject : Text)

lemma ofRegex_ne_outOfSteps (e : Regex.Error) : Failure.ofRegex e ≠ .outOfSteps := by
  cases e <;> simp [Failure.ofRegex]

lemma locate_ne_outOfSteps : Store.locate path ≠ .error .outOfSteps := by
  rw [Store.locate]
  repeat' split
  all_goals simp

lemma append_ne_outOfSteps (s : Store) (bytes : Bytes) : s.append path bytes ≠ .error .outOfSteps := by
  rw [Store.append]
  cases h : Store.locate path with
  | ok name => simp [bind, Except.bind]
  | error e =>
    intro he
    cases he
    exact locate_ne_outOfSteps path h

lemma substitute?_ne_outOfSteps (count : Nat) : x.substitute? template count subject ≠ .error .outOfSteps := by
  rw [Regexp.substitute?]
  cases x.regex with
  | error e =>
    intro h
    exact ofRegex_ne_outOfSteps e (Except.error.inj h)
  | ok r =>
    dsimp only
    repeat' split
    all_goals simp

end

lemma within_setStore (s : Store) : Within Show (setStore s) := .modify fun _ => .single (.store s)

lemma within_print (line : Text) : Within Show (print line) := by
  refine .bind (.modify fun _ => .single (.line line)) fun _ => .bind within_editor fun e => ?_
  cases e.output with
  | silent | stream => exact .pure _
  | file name closed written =>
    dsimp only
    split
    · exact .throw nofun
    · split
      · exact .throw nofun
      · exact .modify fun _ => .single (.output _)

lemma printed_print (line : Text) (m : Machine) :
    (final (print line m)).editor.printed = m.editor.printed.push line := by
  rw [print, bind_ok (show update _ m = .ok () _ from rfl), bind_ok (show editor _ = .ok _ _ from rfl)]
  cases m.editor.output with
  | silent | stream => rfl
  | file name closed written =>
    cases closed with
    | true => rfl
    | false =>
      cases unencodable? line with
      | none => rfl
      | some found => rfl

lemma within_closeOutput : Within Show closeOutput := by
  refine .bind within_editor fun e => ?_
  split
  · rename_i name written _
    exact .modify fun m => .tail (.single (.store (m.store.put name written))) (.output _)
  · exact .pure _

lemma keeps_shown {α γ : Type} {x : Edit α} (hx : Within Show x) {g : Editor → γ}
    (hg : ∀ e printed output, g { e with printed, output } = g e) : Keeps (fun m => g m.editor) x := by
  refine hx.keeps fun m m' h => ?_
  cases h with
  | line t => exact hg m.editor (m.editor.printed.push t) m.editor.output
  | output o => exact hg m.editor m.editor.printed o
  | store s => rfl

lemma within_useRegexp (x : Option Regexp) : Within Recall (useRegexp x) := by
  cases x with
  | some x => exact .bind (.modify fun _ => .single (.mk x)) fun _ => .pure _
  | none =>
    refine .bind within_editor fun e => ?_
    cases e.lastRegexp with
    | some y => exact .pure _
    | none => exact .throw nofun

lemma within_writeFile (name line : Text) : Within Show (writeFile name line) :=
  .bind .get fun _ => .bind (within_lift (append_ne_outOfSteps _ _ _)) fun s => within_setStore s

lemma within_selects (a : Address) : Within Recall a.selects := by
  cases a with
  | line n | last => exact .bind within_editor fun _ => .pure _
  | regexp source ignoreCase prepared =>
    refine .bind (within_useRegexp prepared) fun x => .bind within_pattern fun t => ?_
    cases x.search t with
    | ok found => exact .pure _
    | error e => exact .throw (ofRegex_ne_outOfSteps e)

lemma within_inRange (i : Nat) (first second : Address) : Within (Look i) (Command.inRange i first second) := by
  refine .bind within_editor fun e => ?_
  dsimp only
  split
  · refine .bind ((within_selects second).mono fun _ _ => .remember) fun found => ?_
    split
    · exact .bind (.modify fun _ => .single .leave) fun _ => .pure _
    · exact .pure _
  · refine .bind ((within_selects first).mono fun _ _ => .remember) fun found => ?_
    split
    · exact .bind (.modify fun _ => .single .enter) fun _ => .pure _
    · exact .pure _

lemma within_selected (i : Nat) (c : Command) : Within (Look i) (c.selected i) := by
  rw [Command.selected]
  dsimp only
  split
  · exact .bind (.pure _) fun _ => .pure _
  · exact .bind ((within_selects _).mono fun _ _ => .remember) fun _ => .pure _
  · exact .bind (within_inRange _ _ _) fun _ => .pure _

section

variable {S : Machine → Machine → Prop}

lemma within_setPattern (t : Option Text) : Within (WorkBy S) (setPattern t) := .modify fun _ => .single (.pattern t)

lemma within_readLine : Within (WorkBy S) readLine := .of_ok (fun _ => .single .read) fun _ => ⟨_, _, rfl⟩

lemma Within.work {α : Type} {x : Edit α} (h : Within S x) : Within (WorkBy S) x := h.mono fun _ _ => .display

lemma within_transliteration (y : Transliteration) : Within (WorkBy S) y.execute := by
  refine .bind within_pattern fun t => ?_
  split
  · exact within_setPattern _
  · split
    · exact .pure _
    · exact .throw nofun

lemma within_record (c : Command) (selected : Bool) : Within (WorkBy S) (record c selected) := by
  refine .modify fun m => ?_
  split
  · exact .single (.trials _)
  · exact .refl

variable (hprint : ∀ t, Within S (print t))
include hprint

lemma within_substitution_by {s : Substitution} (hwrite : s.write → ∀ t, Within S (writeFile s.file t)) :
    Within (WorkBy S) s.execute := by
  have hs (t : Text) : Within (WorkBy S) (do
      update fun e => { e with pattern := some t, substituted := true }
      if s.print then Edit.print t
      if s.write then writeFile s.file t : Edit Unit) := by
    refine .bind (.modify fun _ => .tail (.single (.pattern _)) (.substituted true)) fun _ => ?_
    have hw : Within (WorkBy S) (if s.write then writeFile s.file t else pure ()) := by
      split
      · rename_i hw
        exact (hwrite hw t).work
      · exact .pure _
    dsimp only
    split
    · exact .bind (hprint t).work fun _ => hw
    · exact hw
  rw [Substitution.execute]
  -- whichever regexp is used, the same is done with it
  cases s.target
  all_goals
    refine .bind ?_ fun x => .bind within_pattern fun t =>
      .bind (within_lift (substitute?_ne_outOfSteps _ _ _ _)) fun r => ?_
    rotate_left
    · cases r with
      | none => exact .pure _
      | some t => exact hs t
  · exact .throw nofun
  · exact (within_useRegexp none).mono fun _ _ => .remember
  · exact (within_useRegexp _).mono fun _ _ => .remember

lemma within_perform_by {c : Command} (hwrite : ∀ path ∈ c.action.written, ∀ t, Within S (writeFile path t))
    (i : Nat) : Within (WorkBy S) (c.perform i) := by
  rw [Command.perform]
  cases ha : c.action with
  | openBlock | branch label | closeBlock | label name | quit => exact .pure _
  | append t => exact .bind (.modify fun _ => .single (.enqueue [t])) fun _ => .pure _
  | change t =>
    refine .bind within_editor fun e => ?_
    have hs : Within (WorkBy S) (do setPattern none; return Flow.stop) :=
      .bind (within_setPattern none) fun _ => .pure _
    dsimp only
    split
    · exact .bind (hprint t).work fun _ => hs
    · exact hs
  | delete => exact .bind (within_setPattern none) fun _ => .pure _
  | deleteFirst =>
    refine .bind within_pattern fun t => ?_
    dsimp only
    split
    · exact .bind (within_setPattern _) fun _ => .pure _
    · refine .bind (within_setPattern _) fun _ => .bind within_readLine fun line => ?_
      exact .bind (within_setPattern line) fun _ => .pure _
  | lineNumber => exact .bind within_editor fun _ => .bind (hprint _).work fun _ => .pure _
  | get => exact .bind within_editor fun _ => .bind (within_setPattern _) fun _ => .pure _
  | getAppend =>
    exact .bind within_pattern fun _ => .bind within_editor fun _ => .bind (within_setPattern _) fun _ => .pure _
  | hold => exact .bind within_pattern fun t => .bind (.modify fun _ => .single (.hold t)) fun _ => .pure _
  | holdAppend => exact .bind within_pattern fun t => .bind (.modify fun _ => .single (.hold _)) fun _ => .pure _
  | exchange =>
    refine .bind within_pattern fun t => .bind (.modify fun m => ?_) fun _ => .pure _
    exact .tail (.single (.pattern (some m.editor.hold))) (.hold t)
  | insert t => exact .bind (hprint t).work fun _ => .pure _
  | list => exact .bind within_pattern fun _ => .bind (.forM (fun t => (hprint t).work) _) fun _ => .pure _
  | next =>
    have hr : Within (WorkBy S) (do
        let line ← readLine
        setPattern line
        return if line.isSome then Flow.onward else Flow.stop) :=
      .bind within_readLine fun line => .bind (within_setPattern line) fun _ => .pure _
    refine .bind within_editor fun e => ?_
    dsimp only
    split
    · exact .bind within_pattern fun t => .bind (hprint t).work fun _ => hr
    · exact hr
  | nextAppend =>
    refine .bind within_readLine fun line => ?_
    cases line with
    | none => exact .pure _
    | some line => exact .bind within_pattern fun t => .bind (within_setPattern _) fun _ => .pure _
  | print | printFirst => exact .bind within_pattern fun t => .bind (hprint _).work fun _ => .pure _
  | read file => exact .bind .get fun _ => .bind (.modify fun _ => .single (.enqueue _)) fun _ => .pure _
  | substitute s =>
    have hs (hw : s.write) : ∀ t, Within S (writeFile s.file t) := hwrite _ (by simp [ha, Action.written, hw])
    exact .bind (within_substitution_by hprint hs) fun _ => .pure _
  | test label =>
    refine .bind within_editor fun e => ?_
    split
    · exact .bind (.modify fun _ => .single (.substituted false)) fun _ => .pure _
    · exact .pure _
  | write file =>
    have hw := hwrite file (by simp [ha, Action.written])
    exact .bind within_pattern fun t => .bind (hw t).work fun _ => .pure _
  | transliterate y => exact .bind (within_transliteration y) fun _ => .pure _

lemma within_afterSelected_by {c : Command}
    (hwrite : ∀ path ∈ c.action.written, ∀ t, Within S (writeFile path t)) (i : Nat) (found : Bool) :
    Within (WorkBy S) (if found then return (true, ← c.perform i) else return (false, .onward)) := by
  split
  · exact .bind (within_perform_by hprint hwrite i) fun _ => .pure _
  · exact .pure _

lemma within_attempt_by {c : Command} (hwrite : ∀ path ∈ c.action.written, ∀ t, Within S (writeFile path t))
    (i : Nat) : Within (MoveBy S i) (c.attempt i) :=
  .bind ((within_selected i c).mono fun _ _ => .inl) fun found =>
    (within_afterSelected_by hprint hwrite i found).mono fun _ _ => .inr

lemma within_flushQueue_by : Within (WorkBy S) flushQueue :=
  .bind within_editor fun _ => .bind (.forM (fun t => (hprint t).work) _) fun _ => .modify fun _ => .single .dequeue

lemma within_showCycle_by (last : Command) : Within (WorkBy S) (showCycle last) := by
  have hflush : Within (WorkBy S) flushQueue := within_flushQueue_by hprint
  refine .bind within_editor fun e => ?_
  dsimp only
  split
  · refine .bind ?_ fun _ => hflush
    cases e.pattern with
    | some t => exact (hprint t).work
    | none => exact .pure _
  · exact hflush

variable (hclose : Within S closeOutput)
include hclose

omit hprint in
lemma within_nextCycle_by (last : Command) : Within (WorkBy S) (nextCycle last) := by
  have hc : Within (WorkBy S) (do
      closeOutput
      return (← editor).pattern.isSome) :=
    .bind hclose.work fun _ => .bind within_editor fun _ => .pure _
  rw [nextCycle]
  dsimp only
  split
  · exact .bind within_readLine fun line => .bind (within_setPattern line) fun _ => hc
  · exact hc

lemma within_endCycle_by (last : Command) (selected : Bool) : Within (WorkBy S) (endCycle last selected) := by
  refine .bind (within_showCycle_by hprint last) fun _ => ?_
  split
  · exact .pure _
  · exact within_nextCycle_by hclose last

lemma within_afterAttempt_by (c : Command) (r : Bool × Flow) : Within (WorkBy S) (do
    record c r.1
    match c.follow r.2 with
    | some j => return some j
    | none => if ← endCycle c r.1 then return some 0 else return none) := by
  refine .bind (within_record c r.1) fun _ => ?_
  split
  · exact .pure _
  · refine .bind (within_endCycle_by hprint hclose c r.1) fun more => ?_
    cases more with
    | true => exact .pure _
    | false => exact .pure _

variable {p : Program} (hwrite : ∀ c ∈ p, ∀ path ∈ c.action.written, ∀ t, Within S (writeFile path t))
include hwrite

lemma within_turn_by (i : Nat) : Within (MoveBy S i) (turn p i) := by
  rw [turn]
  split
  · exact .pure _
  · rename_i c hc
    exact .bind (within_attempt_by hprint (hwrite c (List.mem_of_getElem? hc)) i) fun r =>
      (within_afterAttempt_by hprint hclose c r).mono fun _ _ => .inr

lemma final_runFrom_by {P : Machine → Prop} (hP : ∀ i m m', MoveBy S i m m' → P m → P m') (budget i : Nat)
    {m : Machine} (hm : P m) : P (final (runFrom p budget i m)) := by
  induction budget generalizing i m with
  | zero => exact hm
  | succ budget ih =>
    have ht : P (final (turn p i m)) := (within_turn_by hprint hclose hwrite i).preserves (hP i) hm
    rw [runFrom]
    cases h : turn p i m with
    | error e m₁ =>
      rw [h] at ht
      rwa [bind_error h]
    | ok next m₁ =>
      rw [h] at ht
      rw [bind_ok h]
      cases next with
      | some j => exact ih j ht
      | none => exact ht

end

lemma work_print (line : Text) : Within Work (print line) := (within_print line).work

lemma work_writeFile (name line : Text) : Within Work (writeFile name line) := (within_writeFile name line).work

lemma within_perform (i : Nat) (c : Command) : Within Work (c.perform i) :=
  within_perform_by within_print (fun path _ => within_writeFile path) i

lemma work_afterSelected (i : Nat) (c : Command) (found : Bool) :
    Within Work (if found then return (true, ← c.perform i) else return (false, .onward)) :=
  within_afterSelected_by within_print (fun path _ => within_writeFile path) i found

lemma within_attempt (i : Nat) (c : Command) : Within (Move i) (c.attempt i) :=
  within_attempt_by within_print (fun path _ => within_writeFile path) i

lemma within_flushQueue : Within Work flushQueue := within_flushQueue_by within_print

lemma within_showCycle (last : Command) : Within Work (showCycle last) := within_showCycle_by within_print last

lemma within_nextCycle (last : Command) : Within Work (nextCycle last) := within_nextCycle_by within_closeOutput last

lemma within_endCycle (last : Command) (selected : Bool) : Within Work (endCycle last selected) :=
  within_endCycle_by within_print within_closeOutput last selected

lemma work_afterAttempt (c : Command) (r : Bool × Flow) : Within Work (do
    record c r.1
    match c.follow r.2 with
    | some j => return some j
    | none => if ← endCycle c r.1 then return some 0 else return none) :=
  within_afterAttempt_by within_print within_closeOutput c r

lemma within_turn (p : Program) (i : Nat) : Within (Move i) (turn p i) :=
  within_turn_by within_print within_closeOutput (fun _ _ path _ => within_writeFile path) i

lemma final_runFrom {P : Machine → Prop} (hP : ∀ i m m', Move i m m' → P m → P m') (p : Program) (budget i : Nat)
    {m : Machine} (hm : P m) : P (final (runFrom p budget i m)) :=
  final_runFrom_by within_print within_closeOutput (fun _ _ path _ => within_writeFile path) hP budget i hm

lemma within_openOutput (destination : Destination) : Within Show (openOutput destination) := by
  cases destination with
  | nowhere | stream => exact .modify fun _ => .single (.output _)
  | file name =>
    refine .bind (within_lift (locate_ne_outOfSteps name)) fun name => .modify fun m => ?_
    exact .tail (.single (.store (m.store.put name []))) (.output _)

lemma within_opening (destination : Destination) : Within Work (do
    openOutput destination
    let line ← readLine
    setPattern line
    return line.isSome) :=
  .bind ((within_openOutput destination).mono fun _ _ => .display) fun _ =>
    .bind within_readLine fun line => .bind (within_setPattern line) fun _ => .pure _

lemma start_eq {p : Program} {source : Source} {destination : Destination} {lines : List Text} {m : Machine}
    (hs : source.lines m.store = .ok lines) :
    start p source destination m = (do
      openOutput destination
      let line ← readLine
      setPattern line
      return line.isSome) { m with editor := { m.editor with
        reader := .ofLines p.asksLast lines, lineNumber := 0, printed := #[] } } := by
  rw [start]
  change (lift (source.lines m.store) >>= _) m = _
  rw [hs]
  rfl

end StreamEditor
