import StreamEditor.Editor.Run
import StreamEditor.Proofs.Script.Ready

namespace StreamEditor

open Edit Outcome

structure Sound (p : Program) (goesOn : Prop) (m : Machine) : Prop where
  output : m.editor.output = .silent
  program : m.editor.program = some p
  pattern : goesOn → m.editor.pattern.isSome = true

section

variable {p : Program} {goesOn : Prop} {m : Machine}

lemma Sound.weaken {less : Prop} (hm : Sound p goesOn m) (h : less → goesOn) : Sound p less m :=
  ⟨hm.output, hm.program, fun hl => hm.pattern (h hl)⟩

lemma Sound.update (hm : Sound p goesOn m) {f : Editor → Editor} (ho : (f m.editor).output = m.editor.output)
    (hp : (f m.editor).program = m.editor.program) {more : Prop}
    (hs : more → (f m.editor).pattern.isSome = true) : Succeeds (update f) m fun _ => Sound p more :=
  ⟨_, _, rfl, ho.trans hm.output, hp.trans hm.program, hs⟩

lemma after_get {α : Type} {f : Machine → Edit α} {Q : α → Machine → Prop}
    (h : Succeeds (f m) m Q) : Succeeds (get >>= f) m Q := h

lemma after_editor {α : Type} {f : Editor → Edit α} {Q : α → Machine → Prop}
    (h : Succeeds (f m.editor) m Q) : Succeeds (editor >>= f) m Q := h

lemma after_pattern {α : Type} {f : Text → Edit α} {Q : α → Machine → Prop}
    (h : ∀ t, Succeeds (f t) m Q) : Succeeds (Edit.pattern >>= f) m Q := h _

lemma succeeds_lift {α : Type} {r : Except Failure α} {a : α} (h : r = .ok a) :
    Succeeds (lift r) m fun b m' => b = a ∧ m' = m := by
  subst h
  exact .pure ⟨rfl, rfl⟩

lemma Sound.print (hm : Sound p goesOn m) (line : Text) : Succeeds (print line) m fun _ => Sound p goesOn := by
  refine .bind (hm.update rfl rfl hm.pattern) fun _ m₁ h₁ => after_editor ?_
  rw [h₁.output]
  exact .pure h₁

lemma Sound.setPattern (hm : Sound p goesOn m) {t : Option Text} {more : Prop} (h : more → t.isSome = true) :
    Succeeds (setPattern t) m fun _ => Sound p more := hm.update rfl rfl h

lemma Sound.readLine (hm : Sound p goesOn m) : Succeeds readLine m fun _ => Sound p goesOn := by
  refine after_editor ?_
  exact .bind (hm.update rfl rfl hm.pattern) fun _ _ h => .pure h

lemma Sound.useRegexp (hm : Sound p goesOn m) (x : Regexp) :
    Succeeds (useRegexp (some x)) m fun y m' => y = x ∧ Sound p goesOn m' :=
  .bind (hm.update rfl rfl hm.pattern) fun _ _ h => .pure ⟨rfl, h⟩

lemma search_compiled {x : Regexp} (hx : x.compiled.isSome = true) (t : Text) : ∃ found, x.search t = .ok found := by
  obtain ⟨r, hr⟩ := Option.isSome_iff_exists.1 hx
  exact ⟨(r.find? x.ignoreCase t).isSome, by simp [Regexp.search, Regexp.regex, hr, Except.map]⟩

lemma Sound.selects (hm : Sound p goesOn m) {a : Address} (ha : a.ready = true) :
    Succeeds a.selects m fun _ => Sound p goesOn := by
  cases a with
  | line n | last =>
    refine after_editor ?_
    exact .pure hm
  | regexp source ignoreCase prepared =>
    obtain ⟨x, rfl, hx⟩ : ∃ x, prepared = some x ∧ x.compiled.isSome = true := by
      cases prepared with
      | none => cases ha
      | some x => exact ⟨x, rfl, ha⟩
    refine .bind (hm.useRegexp x) ?_
    rintro _ m₁ ⟨rfl, h₁⟩
    refine after_pattern fun t => ?_
    obtain ⟨found, hf⟩ := search_compiled hx t
    rw [hf]
    exact .pure h₁

lemma Sound.inRange (hm : Sound p goesOn m) {first second : Address} (hf : first.ready = true)
    (hs : second.ready = true) (i : Nat) : Succeeds (Command.inRange i first second) m fun _ => Sound p goesOn := by
  refine after_editor ?_
  split
  · refine .bind (hm.selects hs) fun found m₁ h₁ => ?_
    dsimp only
    split
    · exact .bind (h₁.update rfl rfl h₁.pattern) fun _ _ h₂ => .pure h₂
    · exact .pure h₁
  · refine .bind (hm.selects hf) fun found m₁ h₁ => ?_
    split
    · exact .bind (h₁.update rfl rfl h₁.pattern) fun _ _ h₂ => .pure h₂
    · exact .pure h₁

lemma Sound.selected (hm : Sound p goesOn m) {c : Command} (hc : c.ready = true) (i : Nat) :
    Succeeds (c.selected i) m fun _ => Sound p goesOn := by
  simp only [Command.ready, Bool.and_eq_true, Option.all_eq_true] at hc
  obtain ⟨⟨hf, hs⟩, -⟩ := hc
  rw [Command.selected]
  dsimp only
  split
  · exact .bind (.pure hm) fun _ _ h => .pure h
  · rename_i a ha _
    exact .bind (hm.selects (hf a ha)) fun _ _ h => .pure h
  · rename_i a b ha hb
    exact .bind (hm.inRange (hf a ha) (hs b hb) i) fun _ _ h => .pure h

lemma substitute?_ready {s : Substitution} (hs : s.ready = true) :
    ∃ x, s.target = .own x ∧ s.write = false ∧ ∀ t, ∃ r, x.substitute? s.replacement s.count t = .ok r := by
  rw [Substitution.ready] at hs
  split at hs
  · rename_i pattern ignoreCase r ht
    simp only [Bool.and_eq_true, Bool.not_eq_true', decide_eq_true_eq, Option.any_eq_true] at hs
    obtain ⟨⟨hw, hc⟩, t, hp, hf⟩ := hs
    refine ⟨_, ht, hw, fun subject => ?_⟩
    simp only [Regexp.substitute?, Regexp.regex, if_neg (Nat.not_le.2 hc), hp, hf]
    split
    · exact ⟨_, rfl⟩
    · exact ⟨_, rfl⟩
  · cases hs

lemma Sound.substitute (hm : Sound p True m) {s : Substitution} (hs : s.ready = true) :
    Succeeds s.execute m fun _ => Sound p True := by
  obtain ⟨x, ht, hw, hx⟩ := substitute?_ready hs
  rw [Substitution.execute, ht]
  refine .bind (hm.useRegexp x) ?_
  rintro _ m₁ ⟨rfl, h₁⟩
  refine after_pattern fun t => ?_
  obtain ⟨r, hr⟩ := hx t
  refine .bind (succeeds_lift hr) ?_
  rintro r _ ⟨rfl, rfl⟩
  cases r with
  | none => exact .pure h₁
  | some u =>
    refine .bind (h₁.update rfl rfl fun (_ : True) => rfl) fun _ m₂ h₂ => ?_
    simp only [hw, Bool.false_eq_true, if_false]
    split
    · exact .bind (h₂.print u) fun _ _ h₃ => .pure h₃
    · exact .pure h₂

lemma Sound.transliterate (hm : Sound p True m) {y : Transliteration} (hy : y.table.isSome = true) :
    Succeeds y.execute m fun _ => Sound p True := by
  obtain ⟨table, ht⟩ := Option.isSome_iff_exists.1 hy
  refine after_pattern fun t => ?_
  rw [ht]
  exact hm.setPattern fun _ => rfl

lemma succeeds_onward {x : Edit Unit} (h : Succeeds x m fun _ => Sound p True) :
    Succeeds (do x; return Flow.onward) m fun flow => Sound p (flow ≠ .stop) :=
  .bind h fun _ _ h' => .pure (h'.weaken fun _ => trivial)

lemma succeeds_stop {x : Edit Unit} (h : Succeeds x m fun _ => Sound p False) :
    Succeeds (do x; return Flow.stop) m fun flow => Sound p (flow ≠ .stop) :=
  .bind h fun _ _ h' => .pure (h'.weaken fun hs => hs rfl)

lemma Sound.takeLine (hm : Sound p goesOn m) :
    Succeeds (do
      let line ← Edit.readLine
      Edit.setPattern line
      return if line.isSome then Flow.onward else Flow.stop) m fun flow => Sound p (flow ≠ .stop) := by
  refine .bind hm.readLine fun line m₁ h₁ => .bind (h₁.setPattern id) fun _ m₂ h₂ => .pure ?_
  refine h₂.weaken fun hf => ?_
  cases line with
  | some t => rfl
  | none => exact absurd rfl hf

lemma Sound.perform (hm : Sound p True m) {c : Command} (hc : c.action.ready = true) (i : Nat) :
    Succeeds (c.perform i) m fun flow => Sound p (flow ≠ .stop) := by
  rw [Command.perform]
  cases ha : c.action with
  | openBlock | branch label | closeBlock | label name | quit => exact .pure (hm.weaken fun _ => trivial)
  | append t => exact succeeds_onward (hm.update rfl rfl hm.pattern)
  | change t =>
    refine after_editor ?_
    split
    · exact .bind (hm.print t) fun _ _ h => succeeds_stop (h.setPattern False.elim)
    · exact succeeds_stop (hm.setPattern False.elim)
  | delete => exact succeeds_stop (hm.setPattern False.elim)
  | deleteFirst =>
    refine after_pattern fun t => ?_
    dsimp only
    split
    · exact succeeds_stop (hm.setPattern False.elim)
    · refine .bind (hm.setPattern False.elim) fun _ m₁ h₁ => .bind h₁.readLine fun line m₂ h₂ => ?_
      exact succeeds_stop (h₂.setPattern False.elim)
  | next =>
    refine after_editor ?_
    split
    · refine after_pattern fun t => ?_
      exact .bind (hm.print t) fun _ _ h => h.takeLine
    · exact hm.takeLine
  | nextAppend =>
    refine .bind hm.readLine fun line m₁ h₁ => ?_
    cases line with
    | none => exact .pure (h₁.weaken fun hs => absurd rfl hs)
    | some line =>
      refine after_pattern fun t => ?_
      exact succeeds_onward (h₁.setPattern fun _ => rfl)
  | lineNumber =>
    refine after_editor ?_
    exact succeeds_onward (hm.print _)
  | get =>
    refine after_editor ?_
    exact succeeds_onward (hm.setPattern fun _ => rfl)
  | getAppend =>
    refine after_pattern fun t => ?_
    refine after_editor ?_
    exact succeeds_onward (hm.setPattern fun _ => rfl)
  | hold | holdAppend =>
    refine after_pattern fun t => ?_
    exact succeeds_onward (hm.update rfl rfl hm.pattern)
  | exchange =>
    refine after_pattern fun t => ?_
    exact succeeds_onward (hm.update rfl rfl fun _ => rfl)
  | insert t => exact succeeds_onward (hm.print t)
  | list =>
    refine after_pattern fun t => ?_
    exact succeeds_onward (.forM (fun line _ _ h => h.print line) hm)
  | print | printFirst =>
    refine after_pattern fun t => ?_
    exact succeeds_onward (hm.print _)
  | read file =>
    refine after_get ?_
    exact succeeds_onward (hm.update rfl rfl hm.pattern)
  | substitute s =>
    rw [ha] at hc
    exact succeeds_onward (hm.substitute hc)
  | test label =>
    refine after_editor ?_
    split
    · exact .bind (hm.update rfl rfl hm.pattern) fun _ _ h => .pure (h.weaken fun _ => trivial)
    · exact .pure (hm.weaken fun _ => trivial)
  | write file =>
    rw [ha] at hc
    cases hc
  | transliterate y =>
    rw [ha] at hc
    exact succeeds_onward (hm.transliterate hc)

lemma Sound.attempt (hm : Sound p True m) {c : Command} (hc : c.ready = true) (i : Nat) :
    Succeeds (c.attempt i) m fun r => Sound p (r.2 ≠ .stop) := by
  have ha : c.action.ready = true := by
    simp only [Command.ready, Bool.and_eq_true] at hc
    exact hc.2
  refine .bind (hm.selected hc i) fun found m₁ h₁ => ?_
  cases found with
  | true => exact .bind (h₁.perform ha i) fun flow _ h₂ => .pure h₂
  | false => exact .pure (h₁.weaken fun _ => trivial)

lemma Sound.record (hm : Sound p goesOn m) (c : Command) (selected : Bool) :
    Succeeds (record c selected) m fun _ => Sound p goesOn := by
  refine ⟨_, _, rfl, ?_⟩
  dsimp only
  split
  · exact ⟨hm.output, hm.program, hm.pattern⟩
  · exact hm

lemma Sound.flushQueue (hm : Sound p goesOn m) : Succeeds flushQueue m fun _ => Sound p goesOn := by
  refine after_editor ?_
  refine .bind (.forM (fun line _ _ h => h.print line) hm) fun _ m₁ h₁ => ?_
  exact h₁.update rfl rfl h₁.pattern

lemma Sound.closeOutput (hm : Sound p goesOn m) : Succeeds closeOutput m fun _ => Sound p goesOn := by
  refine after_editor ?_
  rw [hm.output]
  exact .pure hm

lemma Sound.showCycle (hm : Sound p goesOn m) (last : Command) :
    Succeeds (showCycle last) m fun _ => Sound p goesOn := by
  refine after_editor ?_
  dsimp only
  split
  · have hp : Succeeds (m.editor.pattern.forM Edit.print) m fun _ => Sound p goesOn := by
      cases m.editor.pattern with
      | some t => exact hm.print t
      | none => exact .pure hm
    exact .bind hp fun _ _ h => h.flushQueue
  · exact hm.flushQueue

lemma Sound.nextCycle (hm : Sound p goesOn m) (last : Command) :
    Succeeds (nextCycle last) m fun more => Sound p (more = true) := by
  have hc {goesOn : Prop} {m : Machine} (hm : Sound p goesOn m) : Succeeds (do
      Edit.closeOutput
      return (← editor).pattern.isSome) m fun more => Sound p (more = true) := by
    refine .bind hm.closeOutput fun _ m₁ h₁ => after_editor ?_
    exact .pure ⟨h₁.output, h₁.program, id⟩
  rw [StreamEditor.nextCycle]
  dsimp only
  split
  · refine .bind hm.readLine fun line m₁ h₁ => .bind (h₁.setPattern False.elim) fun _ m₂ h₂ => hc h₂
  · exact hc hm

lemma Sound.endCycle (hm : Sound p goesOn m) (last : Command) (selected : Bool) :
    Succeeds (endCycle last selected) m fun more => Sound p (more = true) := by
  refine .bind (hm.showCycle last) fun _ m₁ h₁ => ?_
  split
  · exact .pure (h₁.weaken nofun)
  · exact h₁.nextCycle last

lemma Sound.turn (hm : Sound p True m) (hp : ∀ c ∈ p, c.ready = true) (i : Nat) :
    Succeeds (turn p i) m fun next => Sound p (next.isSome = true) := by
  rw [StreamEditor.turn]
  split
  · exact .pure (hm.weaken fun _ => trivial)
  · rename_i c hc
    refine .bind (hm.attempt (hp c (List.mem_of_getElem? hc)) i) ?_
    rintro ⟨selected, flow⟩ m₁ h₁
    refine .bind (h₁.record c selected) fun _ m₂ h₂ => ?_
    split
    · rename_i j hj
      refine .pure (h₂.weaken fun _ hs => ?_)
      obtain rfl : flow = .stop := hs
      cases hj
    · refine .bind (h₂.endCycle c selected) fun more m₃ h₃ => ?_
      cases more with
      | true => exact .pure (h₃.weaken fun _ => rfl)
      | false => exact .pure (h₃.weaken nofun)

end

end StreamEditor
