import StreamEditor.Proofs.Editor.Work

namespace StreamEditor

open Edit Outcome

structure Line where
  text : Text
  auto : Bool

def shownOf (quiet : Bool) (lines : List Line) : List Text :=
  (lines.filter fun l => !(quiet && l.auto)).map Line.text

def asked (ts : List Text) : List Line := ts.map fun t => ⟨t, false⟩

def unasked (ts : List Text) : List Line := ts.map fun t => ⟨t, true⟩

section

variable (quiet : Bool)

@[simp] lemma shownOf_nil : shownOf quiet [] = [] := rfl

@[simp] lemma shownOf_append (ls ls' : List Line) :
    shownOf quiet (ls ++ ls') = shownOf quiet ls ++ shownOf quiet ls' := by
  simp [shownOf]

@[simp] lemma shownOf_asked (ts : List Text) : shownOf quiet (asked ts) = ts := by
  simp [shownOf, asked, List.filter_map, Function.comp_def]

@[simp] lemma shownOf_unasked (ts : List Text) : shownOf quiet (unasked ts) = if quiet then [] else ts := by
  cases quiet <;> simp [shownOf, unasked, List.filter_map, Function.comp_def]

lemma shownOf_flatMap {α : Type} (f : α → List Line) (as : List α) :
    shownOf quiet (as.flatMap f) = as.flatMap fun a => shownOf quiet (f a) := by
  induction as with
  | nil => rfl
  | cons a as ih => rw [List.flatMap_cons, shownOf_append, ih, List.flatMap_cons]

end

abbrev Machine.space (m : Machine) : Text := m.editor.pattern.getD []

abbrev Machine.shown (m : Machine) : List Text := m.editor.printed.toList

abbrev Machine.queue (m : Machine) : List Text := m.editor.queue

namespace Substitution

def regexp? (s : Substitution) (m : Machine) : Option Regexp :=
  match s.target with
  | .pending => none
  | .recalled => m.editor.lastRegexp
  | .own x => some x

def choose (s : Substitution) : Edit Regexp :=
  match s.target with
  | .pending => throw .substitutionUnprepared
  | .recalled => useRegexp none
  | .own x => useRegexp (some x)

def replace (s : Substitution) (x : Regexp) : Edit Unit := do
  match ← lift (x.substitute? s.replacement s.count (← Edit.pattern)) with
  | none => return
  | some t =>
    update fun e => { e with pattern := some t, substituted := true }
    if s.print then Edit.print t
    if s.write then writeFile s.file t

lemma execute_eq (s : Substitution) : s.execute = (do s.replace (← s.choose)) := by
  rw [execute, choose]
  cases s.target <;> rfl

def made? (s : Substitution) (m : Machine) : Option Text :=
  (s.regexp? m).bind fun x => (x.substitute? s.replacement s.count m.space).toOption.join

end Substitution

namespace Command

def lines (i : Nat) (c : Command) (m : Machine) : List Line :=
  match c.action with
  | .insert t => asked [t]
  | .change t => if c.second.isNone || !m.editor.ranges.contains i then asked [t] else []
  | .lineNumber => asked [Text.ofNumber m.editor.lineNumber]
  | .list => asked (foldLine (visible m.space))
  | .next => unasked [m.space]
  | .print => asked [m.space]
  | .printFirst => asked [firstLine m.space]
  | .substitute s => asked (if s.print then (s.made? m).toList else [])
  | _ => []

def queued (c : Command) (m : Machine) : List Text :=
  match c.action with
  | .append t => [t]
  | .read file => fileLines m.store file
  | _ => []

end Command

def takeLine : Edit Flow := do
  let line ← readLine
  setPattern line
  return if line.isSome then .onward else .stop

def Adds {α : Type} (x : Edit α) (m : Machine) (shown queued : List Text) : Prop :=
  ∀ a m', x m = .ok a m' → m'.shown = m.shown ++ shown ∧ m'.queue = m.queue ++ queued

section

variable {α β : Type} {x : Edit α} {f : α → Edit β} {m : Machine} {shown queued : List Text}

lemma adds_of_keeps (hs : Keeps Machine.shown x) (hq : Keeps Machine.queue x) : Adds x m [] [] := by
  intro a m' h
  rw [hs m a m' h, hq m a m' h]
  simp

lemma adds_pure (a : α) : Adds (pure a) m [] [] := adds_of_keeps (.pure a) (.pure a)

lemma adds_update {g : Editor → Editor} (hs : (g m.editor).printed = m.editor.printed)
    (hq : (g m.editor).queue = m.editor.queue ++ queued) : Adds (update g) m [] queued := by
  intro a m' h
  cases h
  exact ⟨by simp [hs], hq⟩

lemma Adds.andThen (hx : Adds x m [] []) (hf : ∀ a m', x m = .ok a m' → Adds (f a) m' shown queued) :
    Adds (x >>= f) m shown queued := by
  intro b m' h
  obtain ⟨a, m₁, ha, hb⟩ := Outcome.bind_eq_ok.1 h
  obtain ⟨hs, hq⟩ := hx a m₁ ha
  obtain ⟨hs', hq'⟩ := hf a m₁ ha b m' hb
  rw [hs', hq', hs, hq, List.append_nil, List.append_nil]
  exact ⟨rfl, rfl⟩

lemma Adds.done (hx : Adds x m shown queued) (hf : ∀ a m', Adds (f a) m' [] []) :
    Adds (x >>= f) m shown queued := by
  intro b m' h
  obtain ⟨a, m₁, ha, hb⟩ := Outcome.bind_eq_ok.1 h
  obtain ⟨hs, hq⟩ := hx a m₁ ha
  obtain ⟨hs', hq'⟩ := hf a m₁ b m' hb
  rw [hs', hq', hs, hq, List.append_nil, List.append_nil]
  exact ⟨rfl, rfl⟩

lemma adds_after_editor {f : Editor → Edit β} (h : Adds (f m.editor) m shown queued) :
    Adds (editor >>= f) m shown queued := h

lemma adds_after_get {f : Machine → Edit β} (h : Adds (f m) m shown queued) : Adds (get >>= f) m shown queued := h

lemma adds_after_pattern {f : Text → Edit β} (h : Adds (f m.space) m shown queued) :
    Adds (Edit.pattern >>= f) m shown queued := h

end

section

variable {m : Machine}

lemma adds_setPattern (t : Option Text) : Adds (setPattern t) m [] [] := adds_update rfl (List.append_nil _).symm

lemma adds_readLine : Adds readLine m [] [] := by
  intro line m' h
  cases h
  exact ⟨(List.append_nil _).symm, (List.append_nil _).symm⟩

lemma adds_print (t : Text) : Adds (print t) m [t] [] := by
  intro a m' h
  have hq : m'.queue = m.queue :=
    keeps_shown (within_print t) (g := Editor.queue) (fun _ _ _ => rfl) m a m' h
  have hs := printed_print t m
  rw [h] at hs
  rw [Machine.shown, show m'.editor.printed = _ from hs, hq]
  simp

lemma adds_forM_print (ts : List Text) : Adds (ts.forM print) m ts [] := by
  induction ts generalizing m with
  | nil => exact adds_pure _
  | cons t ts ih =>
    intro a m' h
    obtain ⟨_, m₁, hp, h⟩ := Outcome.bind_eq_ok.1 h
    obtain ⟨hs, hq⟩ := adds_print t _ m₁ hp
    obtain ⟨hs', hq'⟩ := ih a m' h
    rw [hs', hq', hs, hq]
    simp

lemma lift_eq_ok {α : Type} {r : Except Failure α} {a : α} {m' : Machine} (h : lift r m = .ok a m') :
    r = .ok a ∧ m' = m := by
  cases r with
  | ok b =>
    cases h
    exact ⟨rfl, rfl⟩
  | error e => cases h

lemma adds_writeFile (name line : Text) : Adds (writeFile name line) m [] [] := by
  intro a m' h
  obtain ⟨_, m₁, hg, h⟩ := Outcome.bind_eq_ok.1 h
  cases hg
  obtain ⟨s, m₂, hl, hw⟩ := Outcome.bind_eq_ok.1 h
  obtain ⟨-, rfl⟩ := lift_eq_ok hl
  cases hw
  simp

lemma adds_replace (s : Substitution) (x : Regexp) :
    Adds (s.replace x) m
      (if s.print then (x.substitute? s.replacement s.count m.space).toOption.join.toList else []) [] := by
  refine adds_after_pattern ?_
  intro a m' h
  obtain ⟨r, m₁, hr, h⟩ := Outcome.bind_eq_ok.1 h
  obtain ⟨hr, rfl⟩ := lift_eq_ok hr
  rw [hr]
  cases r with
  | none =>
    cases h
    simp [Except.toOption]
  | some t =>
    have hw {m : Machine} : Adds (if s.write then writeFile s.file t else pure ()) m [] [] := by
      split
      · exact adds_writeFile s.file t
      · exact adds_pure _
    refine Adds.andThen (adds_update rfl (List.append_nil _).symm) (fun _ m₁ _ => ?_) a m' h
    dsimp only
    split
    · exact (adds_print t).done fun _ _ => hw
    · exact hw

lemma of_choose {s : Substitution} {x : Regexp} {m' : Machine} (h : s.choose m = .ok x m') :
    s.regexp? m = some x ∧ ∃ last, m' = { m with editor := { m.editor with lastRegexp := last } } := by
  rw [Substitution.choose] at h
  rw [Substitution.regexp?]
  cases ht : s.target with
  | pending =>
    rw [ht] at h
    cases h
  | own y =>
    rw [ht] at h
    cases h
    exact ⟨rfl, _, rfl⟩
  | recalled =>
    rw [ht] at h
    obtain ⟨e, m₁, he, h⟩ := Outcome.bind_eq_ok.1 h
    cases he
    cases hl : m.editor.lastRegexp with
    | none =>
      rw [hl] at h
      cases h
    | some y =>
      rw [hl] at h
      cases h
      exact ⟨rfl, _, rfl⟩

lemma adds_substitution (s : Substitution) :
    Adds s.execute m (if s.print then (s.made? m).toList else []) [] := by
  intro a m' h
  rw [s.execute_eq] at h
  obtain ⟨x, m₁, hx, h⟩ := Outcome.bind_eq_ok.1 h
  obtain ⟨hr, last, rfl⟩ := of_choose hx
  rw [Substitution.made?, hr]
  exact adds_replace (m := { m with editor := { m.editor with lastRegexp := last } }) s x a m' h

lemma adds_transliteration (y : Transliteration) : Adds y.execute m [] [] := by
  refine adds_after_pattern ?_
  split
  · exact adds_setPattern _
  · split
    · exact adds_pure _
    · intro a m' h
      cases h

lemma adds_closeOutput : Adds closeOutput m [] [] := by
  refine adds_after_editor ?_
  split
  · intro a m' h
    cases h
    simp
  · exact adds_pure _

lemma adds_openOutput (destination : Destination) : Adds (openOutput destination) m [] [] := by
  rw [openOutput.eq_def]
  cases destination with
  | nowhere | stream => exact adds_update rfl (List.append_nil _).symm
  | file name =>
    intro a m' h
    obtain ⟨name, m₁, hl, hm⟩ := Outcome.bind_eq_ok.1 h
    obtain ⟨-, rfl⟩ := lift_eq_ok hl
    cases hm
    simp

lemma adds_takeLine : Adds takeLine m [] [] :=
  adds_readLine.andThen fun _ _ _ => (adds_setPattern _).done fun _ _ => adds_pure _

-- One case for each action: what it prints and queues is what the definitions above say.
lemma adds_perform (i : Nat) (c : Command) :
    Adds (c.perform i) m (shownOf m.editor.quiet (c.lines i m)) (c.queued m) := by
  rw [Command.perform, Command.lines, Command.queued]
  cases c.action with
  | openBlock | branch label | closeBlock | label name | quit => exact adds_pure _
  | append t => exact (adds_update rfl rfl).done fun _ _ => adds_pure _
  | change t =>
    refine adds_after_editor ?_
    have hs {m : Machine} : Adds (do setPattern none; return Flow.stop) m [] [] :=
      (adds_setPattern none).done fun _ _ => adds_pure _
    dsimp only
    split
    · rw [shownOf_asked]
      exact (adds_print t).done fun _ _ => hs
    · exact hs
  | delete => exact (adds_setPattern none).done fun _ _ => adds_pure _
  | deleteFirst =>
    refine adds_after_pattern ?_
    dsimp only
    split
    · exact (adds_setPattern _).done fun _ _ => adds_pure _
    · refine (adds_setPattern _).andThen fun _ _ _ => adds_readLine.andThen fun line _ _ => ?_
      exact (adds_setPattern line).done fun _ _ => adds_pure _
  | lineNumber =>
    refine adds_after_editor ?_
    rw [shownOf_asked]
    exact (adds_print _).done fun _ _ => adds_pure _
  | get =>
    refine adds_after_editor ?_
    exact (adds_setPattern _).done fun _ _ => adds_pure _
  | getAppend =>
    refine adds_after_pattern (adds_after_editor ?_)
    exact (adds_setPattern _).done fun _ _ => adds_pure _
  | hold | holdAppend | exchange =>
    refine adds_after_pattern ?_
    exact (adds_update rfl (List.append_nil _).symm).done fun _ _ => adds_pure _
  | insert t =>
    rw [shownOf_asked]
    exact (adds_print t).done fun _ _ => adds_pure _
  | list =>
    refine adds_after_pattern ?_
    rw [shownOf_asked]
    exact (adds_forM_print _).done fun _ _ => adds_pure _
  | next =>
    refine adds_after_editor ?_
    rw [shownOf_unasked]
    cases m.editor.quiet with
    | true => exact adds_takeLine
    | false =>
      refine adds_after_pattern ?_
      exact (adds_print _).done fun _ _ => adds_takeLine
  | nextAppend =>
    refine adds_readLine.andThen fun line m₁ _ => ?_
    cases line with
    | none => exact adds_pure _
    | some line =>
      refine adds_after_pattern ?_
      exact (adds_setPattern _).done fun _ _ => adds_pure _
  | print | printFirst =>
    refine adds_after_pattern ?_
    rw [shownOf_asked]
    exact (adds_print _).done fun _ _ => adds_pure _
  | read file =>
    refine adds_after_get ?_
    exact (adds_update rfl rfl).done fun _ _ => adds_pure _
  | substitute s =>
    rw [shownOf_asked]
    exact (adds_substitution s).done fun _ _ => adds_pure _
  | test label =>
    refine adds_after_editor ?_
    split
    · exact (adds_update rfl (List.append_nil _).symm).done fun _ _ => adds_pure _
    · exact adds_pure _
  | write file =>
    refine adds_after_pattern ?_
    exact (adds_writeFile _ _).done fun _ _ => adds_pure _
  | transliterate y => exact (adds_transliteration y).done fun _ _ => adds_pure _

end

end StreamEditor
