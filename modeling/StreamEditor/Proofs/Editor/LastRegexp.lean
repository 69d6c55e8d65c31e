import StreamEditor.Proofs.Editor.Evaluations
import StreamEditor.Proofs.Editor.Substituted
import StreamEditor.Proofs.Runs.Repeat

namespace StreamEditor

open Edit Outcome

def Command.evaluators (c : Command) : List Evaluator :=
  (c.first.toList ++ c.second.toList).map .address ++ c.action.evaluator?.toList

section

variable {e : Evaluation} {m : Machine}

lemma Evaluator.uses {v : Evaluator} (hv : v.evaluates = true) {x : Regexp}
    (hx : v.written.or m.editor.lastRegexp = some x) : v.Uses x m := by
  have huse := useRegexp_eq_ok hx
  cases v with
  | address a =>
    cases a with
    | line | last => cases hv
    | regexp source ignoreCase prepared => exact bind_ok huse
  | substitution s =>
    rw [Uses, Substitution.execute_eq_use (by simpa [evaluates] using hv)]
    exact bind_ok huse

lemma Evaluator.fails {v : Evaluator} (hv : v.evaluates = true) (hx : v.written.or m.editor.lastRegexp = none) :
    v.Fails m := by
  have huse := useRegexp_eq_error hx
  cases v with
  | address a =>
    cases a with
    | line | last => cases hv
    | regexp source ignoreCase prepared => exact bind_error huse
  | substitution s =>
    rw [Fails, Substitution.execute_eq_use (by simpa [evaluates] using hv)]
    exact bind_error huse

lemma mem_log {v : Evaluator} {i : Nat} (h : e ∈ v.log i m) : e = ⟨i, v, m⟩ ∧ v.evaluates = true := by
  rw [Evaluator.log] at h
  split at h
  · exact ⟨List.mem_singleton.1 h, ‹_›⟩
  · cases h

lemma mem_lookedAt {a : Address} {c : Command} {i : Nat} (h : c.lookedAt i m = some a) :
    a ∈ c.first.toList ++ c.second.toList := by
  rw [Command.lookedAt] at h
  split at h
  · rename_i hfirst hsecond
    rw [hfirst, hsecond]
    cases h
    split <;> simp
  · simp [h]

lemma mem_command_evaluations {c : Command} {i : Nat} (h : e ∈ c.evaluations i m) :
    e.position = i ∧ e.evaluator ∈ c.evaluators ∧ e.evaluator.evaluates = true := by
  rw [Command.evaluations, List.mem_append] at h
  rcases h with h | h
  · cases ha : c.lookedAt i m with
    | none =>
      rw [ha] at h
      cases h
    | some a =>
      rw [ha] at h
      obtain ⟨rfl, hv⟩ := mem_log h
      exact ⟨rfl, List.mem_append_left _ (List.mem_map_of_mem (mem_lookedAt ha)), hv⟩
  · split at h
    · cases hv : c.action.evaluator? with
      | none =>
        rw [hv] at h
        cases h
      | some v =>
        rw [hv] at h
        obtain ⟨rfl, he⟩ := mem_log h
        exact ⟨rfl, List.mem_append_right _ (by simp [hv]), he⟩
    · cases h

lemma mem_program_evaluations {p : Program} {budget i : Nat} (h : e ∈ p.evaluations budget i m) :
    ∃ c, p[e.position]? = some c ∧ e.evaluator ∈ c.evaluators ∧ e.evaluator.evaluates = true := by
  induction budget generalizing i m with
  | zero => cases h
  | succ budget ih =>
    rw [Program.evaluations, List.mem_append] at h
    rcases h with h | h
    · cases hc : p[i]? with
      | none =>
        rw [hc] at h
        cases h
      | some c =>
        rw [hc] at h
        obtain ⟨rfl, hv⟩ := mem_command_evaluations h
        exact ⟨c, hc, hv⟩
    · split at h
      · exact ih h
      · cases h

lemma mem_application_evaluations {p : Program} (hm : m.editor.program = some p) {a : Application}
    (h : e ∈ a.evaluations m) :
    ∃ c, p[e.position]? = some c ∧ e.evaluator ∈ c.evaluators ∧ e.evaluator.evaluates = true := by
  rw [Application.evaluations, hm] at h
  dsimp only at h
  split at h
  · exact mem_program_evaluations h
  · cases h

lemma program_run {p : Program} (hm : m.editor.program = some p) (a : Application) :
    (final (a.run m)).editor.program = some p := by
  cases hs : a.source.lines m.store with
  | ok lines =>
    exact final_apply (P := fun m' => m'.editor.program = some p)
      (fun _ _ _ h hp => (congrArg (·.1) h.fixed_eq).trans hp) hm hs hm a.destination a.budget
  | error failure =>
    have hlift : lift (a.source.lines m.store) m = .error failure m := by
      rw [hs]
      rfl
    have hget : (get : Edit Machine) m = .ok m m := rfl
    have hstart : start p a.source a.destination m = .error failure m := (bind_ok hget).trans (bind_error hlift)
    rw [Application.run, apply_eq hm, bind_error hstart]
    exact hm

lemma program_after {p : Program} (hm : m.editor.program = some p) (as : List Application) :
    (m.after as).editor.program = some p := by
  induction as generalizing m with
  | nil => exact hm
  | cons a as ih => exact ih (program_run hm a)

end

def Address.regexp? : Address → Option (Text × Bool)
  | .regexp source ignoreCase _ => some (source, ignoreCase)
  | _ => none

def Action.regexp? : Action → Option (Text × Bool)
  | .substitute s => s.pattern.map (·, s.ignoreCase)
  | _ => none

def Command.regexps (c : Command) : List (Text × Bool) :=
  (c.first.toList ++ c.second.toList).filterMap Address.regexp? ++ c.action.regexp?.toList

section

variable {mode : RegexpMode}

lemma ofScript_eq_none_iff {deferred extended ignoreCase : Bool} {source : Text} {w : Option Regexp}
    (h : Regexp.ofScript deferred extended ignoreCase source = .ok w) : w = none ↔ source = [] := by
  cases source with
  | nil =>
    cases h
    simp
  | cons c cs =>
    obtain ⟨pattern, -, h⟩ := bind_eq_ok.1 h
    cases deferred with
    | true =>
      cases h
      simp
    | false =>
      rw [if_neg Bool.false_ne_true] at h
      split at h <;> cases h
      simp

lemma Program.of_prepare {p : Program} (h : (p.prepare mode).failure = none) :
    (∀ c ∈ p, (c.prepare mode).failure = none) ∧ (p.prepare mode).value = p.map fun c => (c.prepare mode).value := by
  induction p with
  | nil => exact ⟨by simp, rfl⟩
  | cons c cs ih =>
    obtain ⟨h₁, h₂, he⟩ := Attempt.of_andThen h
    obtain ⟨hcs, hvalue⟩ := ih h₂
    rw [Program.prepare, he]
    exact ⟨List.forall_mem_cons.2 ⟨h₁, hcs⟩, congrArg (_ :: ·) hvalue⟩

lemma Address.written_prepare {a : Address} (h : (a.prepare mode).failure = none)
    (hv : (Evaluator.address (a.prepare mode).value).evaluates = true) :
    ∃ t, a.regexp? = some t ∧ Regexp.ofScript mode.deferred mode.extended t.2 t.1 =
      .ok (Evaluator.address (a.prepare mode).value).written := by
  cases a with
  | line | last => cases hv
  | regexp source ignoreCase prepared =>
    refine ⟨(source, ignoreCase), rfl, ?_⟩
    rw [prepare] at h ⊢
    cases hx : Regexp.ofScript mode.deferred mode.extended ignoreCase source with
    | ok x => rfl
    | error e =>
      rw [hx] at h
      cases h

lemma Substitution.written_prepare {s : Substitution} (h : (s.prepare mode).failure = none) :
    ∃ source, s.pattern = some source ∧ Regexp.ofScript mode.deferred mode.extended s.ignoreCase source =
      .ok (Evaluator.substitution (s.prepare mode).value).written := by
  rw [prepare] at h ⊢
  cases hp : s.pattern with
  | none =>
    rw [hp] at h
    cases h
  | some source =>
    rw [hp] at h
    refine ⟨source, rfl, ?_⟩
    dsimp only at h ⊢
    cases hx : Regexp.ofScript mode.deferred mode.extended s.ignoreCase source with
    | error e =>
      rw [hx] at h
      cases h
    | ok x => cases x <;> rfl

lemma Command.written_prepareAction {c : Command} (h : (c.prepareAction mode).failure = none) {v : Evaluator}
    (hv : (c.prepareAction mode).value.action.evaluator? = some v) :
    ∃ t, c.action.regexp? = some t ∧ Regexp.ofScript mode.deferred mode.extended t.2 t.1 = .ok v.written := by
  rw [prepareAction] at h hv
  cases ha : c.action with
  | substitute s =>
    rw [ha] at h hv
    cases hv
    obtain ⟨source, hs, hx⟩ := Substitution.written_prepare h
    exact ⟨(source, s.ignoreCase), by rw [Action.regexp?, hs]; rfl, hx⟩
  | _ =>
    simp only [ha, Attempt.done, Action.evaluator?] at hv
    cases hv

lemma Command.written_prepare {c : Command} (h : (c.prepare mode).failure = none) {v : Evaluator}
    (hv : v ∈ (c.prepare mode).value.evaluators) (he : v.evaluates = true) :
    ∃ t ∈ c.regexps, Regexp.ofScript mode.deferred mode.extended t.2 t.1 = .ok v.written := by
  obtain ⟨hfirst, hsecond, haction, hvalue⟩ := of_prepare h
  have haddress {o : Option Address} (ho : ∀ a ∈ o, (a.prepare mode).failure = none) {b : Address}
      (hb : b ∈ (o.map fun a => (a.prepare mode).value).toList) (hv : .address b = v) :
      ∃ a ∈ o.toList, ∃ t, a.regexp? = some t ∧
        Regexp.ofScript mode.deferred mode.extended t.2 t.1 = .ok v.written := by
    obtain ⟨a, rfl, rfl⟩ := Option.map_eq_some_iff.1 (Option.mem_toList.1 hb)
    subst hv
    exact ⟨a, Option.mem_toList.2 rfl, Address.written_prepare (ho a rfl) he⟩
  rw [hvalue, evaluators] at hv
  rcases List.mem_append.1 hv with hv | hv
  · obtain ⟨b, hb, hv⟩ := List.mem_map.1 hv
    obtain ⟨a, ha, t, ht, hx⟩ : ∃ a ∈ c.first.toList ++ c.second.toList, ∃ t, a.regexp? = some t ∧
        Regexp.ofScript mode.deferred mode.extended t.2 t.1 = .ok v.written := by
      rcases List.mem_append.1 hb with hb | hb
      · obtain ⟨a, ha, hx⟩ := haddress hfirst hb hv
        exact ⟨a, List.mem_append_left _ ha, hx⟩
      · obtain ⟨a, ha, hx⟩ := haddress hsecond hb hv
        exact ⟨a, List.mem_append_right _ ha, hx⟩
    exact ⟨t, List.mem_append_left _ (List.mem_filterMap.2 ⟨a, ha, ht⟩), hx⟩
  · obtain ⟨t, ht, hx⟩ := written_prepareAction haction (Option.mem_toList.1 hv)
    exact ⟨t, List.mem_append_right _ (Option.mem_toList.2 ht), hx⟩

end

/-- Every regexp that a run comes to is one of the script, and is empty if nothing is written for it. An empty one is
used as the last one before it that is not, be it of this run or an earlier one, and the run fails for want of a regexp
exactly if there is none. -/
theorem empty_regexp_recalls_last_evaluated {lines : List Text} {m m₁ : Machine} {q : Program} {n : Nat}
    (hload : loadLines lines m = .ok () m₁) (hq : Script.program (Script.pack lines) m.nextNumber = .ok q n)
    (hfresh : m.editor.lastRegexp = none) (earlier : List Application) (a : Application) :
    (∀ e ∈ a.evaluations (m₁.after earlier), ∃ c, q[e.position]? = some c ∧ ∃ t ∈ c.regexps,
      Regexp.ofScript m.deferred m.editor.extended t.2 t.1 = .ok e.written ∧ (e.written = none ↔ t.1 = [])) ∧
    (∀ before e after, a.evaluations (m₁.after earlier) = before ++ e :: after →
      (∀ x, e.written.or (lastWritten (m₁.evaluations earlier ++ before)) = some x → e.evaluator.Uses x e.state) ∧
      (e.written.or (lastWritten (m₁.evaluations earlier ++ before)) = none → e.evaluator.Fails e.state)) ∧
    (failure? (a.run (m₁.after earlier)) = some (.fault .emptyRegexp) ↔
      ∃ before e after, a.evaluations (m₁.after earlier) = before ++ e :: after ∧ e.written = none ∧
        lastWritten (m₁.evaluations earlier ++ before) = none) ∧
    (final (a.run (m₁.after earlier))).editor.lastRegexp = lastWritten (m₁.evaluations (earlier ++ [a])) := by
  obtain ⟨hf, heditor⟩ := editor_of_loadLines hload hq
  obtain ⟨hprepared, hprogram⟩ := Program.of_prepare hf
  have hm₁ : m₁.editor.program = some _ := congrArg Editor.program heditor
  have hlast : m₁.editor.lastRegexp = none := (congrArg Editor.lastRegexp heditor).trans hfresh
  have hlog := logs_run a (m₁.after earlier)
  have hmem {e : Evaluation} (he : e ∈ a.evaluations (m₁.after earlier)) :=
    mem_application_evaluations (program_after hm₁ earlier) he
  have hstate {before after : List Evaluation} {e : Evaluation}
      (h : a.evaluations (m₁.after earlier) = before ++ e :: after) :
      e.state.editor.lastRegexp = lastWritten (m₁.evaluations earlier ++ before) := by
    rw [hlog.states before e after h, lastRegexp_after, hlast, Option.or_none, lastWritten_append]
  refine ⟨fun e he => ?_, fun before e after h => ?_, ?_, ?_⟩
  · obtain ⟨c', hc', hv, hevaluates⟩ := hmem he
    rw [hprogram, List.getElem?_map] at hc'
    obtain ⟨c, hc, rfl⟩ := Option.map_eq_some_iff.1 hc'
    obtain ⟨t, ht, hx⟩ := Command.written_prepare (hprepared c (List.mem_of_getElem? hc)) hv hevaluates
    exact ⟨c, hc, t, ht, hx, ofScript_eq_none_iff hx⟩
  · obtain ⟨-, -, -, hevaluates⟩ := hmem (h ▸ List.mem_append_right _ List.mem_cons_self)
    rw [← hstate h]
    exact ⟨fun x => Evaluator.uses hevaluates, Evaluator.fails hevaluates⟩
  · rw [hlog.fails]
    constructor
    · rintro ⟨e, he, hunmet⟩
      obtain ⟨before, after, h⟩ := List.append_of_mem he
      rw [Evaluation.Unmet, hstate h, Option.or_eq_none_iff] at hunmet
      exact ⟨before, e, after, h, hunmet⟩
    · rintro ⟨before, e, after, h, hunmet⟩
      refine ⟨e, h ▸ List.mem_append_right _ List.mem_cons_self, ?_⟩
      rw [Evaluation.Unmet, hstate h, Option.or_eq_none_iff]
      exact hunmet
  · rw [← m₁.after_concat, lastRegexp_after, hlast, Option.or_none]

def sampleRecall : List Text := [['$', 's', '/', 'e', '/', 'X', '/'], ['s', '/', '/', 'Y', '/']]

def sampleApplication (t : Text) : Application := ⟨10, .text t, .nowhere⟩

theorem empty_regexp_recalls_last_evaluated_sampleRecall :
    ∃ m₁, loadLines sampleRecall sampleMachine = .ok () m₁ ∧ sampleMachine.editor.lastRegexp = none ∧
      failure? ((sampleApplication ['a', '\n', 'e']).run m₁) = some (.fault .emptyRegexp) ∧
      ∃ e after, (sampleApplication ['e', '\n', 'a']).evaluations
          (m₁.after [sampleApplication ['a', '\n', 'e'], sampleApplication ['e', 'e']]) = e :: after ∧
        e.written = none ∧ e.evaluator.Uses ⟨['e'], false, some (.char 'e')⟩ e.state := by
  let m₁ := final (loadLines sampleRecall sampleMachine)
  have hload : loadLines sampleRecall sampleMachine = .ok () m₁ := eq_ok_of_result? (by decide +kernel)
  obtain ⟨q, n, hq⟩ := program_of_loadLines hload
  let a₁ := sampleApplication ['a', '\n', 'e']
  let a₂ := sampleApplication ['e', 'e']
  let a₃ := sampleApplication ['e', '\n', 'a']
  have hfirst : (a₁.evaluations m₁).map (·.written) = [none] := by decide +kernel
  have hearlier : lastWritten (m₁.evaluations [a₁, a₂]) = some ⟨['e'], false, some (.char 'e')⟩ := by decide +kernel
  have hthird : (a₃.evaluations (m₁.after [a₁, a₂])).head?.map (·.written) = some none := by decide +kernel
  obtain ⟨-, -, hfails, -⟩ := empty_regexp_recalls_last_evaluated hload hq rfl [] a₁
  obtain ⟨-, huses, -, -⟩ := empty_regexp_recalls_last_evaluated hload hq rfl [a₁, a₂] a₃
  obtain ⟨e₁, h₁, hw₁⟩ := List.map_eq_singleton_iff.1 hfirst
  obtain ⟨e₃, h₃, hw₃⟩ := Option.map_eq_some_iff.1 hthird
  obtain ⟨after, h₃⟩ := List.head?_eq_some_iff.1 h₃
  refine ⟨m₁, hload, rfl, hfails.2 ⟨[], e₁, [], h₁, hw₁, rfl⟩, e₃, after, h₃, hw₃, (huses [] e₃ after h₃).1 _ ?_⟩
  rw [hw₃, List.append_nil]
  exact hearlier

end StreamEditor
