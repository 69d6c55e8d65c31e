import Mathlib.Logic.Relation
import StreamEditor.Editor.Run
import StreamEditor.Proofs.Editor.Sound

namespace StreamEditor

open Edit Outcome

section

variable {p : Program} {m : Machine}

lemma Sound.runFrom (hm : Sound p True m) (hp : ∀ c ∈ p, c.ready = true) (budget i : Nat) :
    (∃ m', runFrom p budget i m = .ok () m' ∧ Sound p False m') ∨
      ∃ m', runFrom p budget i m = .error .outOfSteps m' := by
  induction budget generalizing i m with
  | zero => exact .inr ⟨m, rfl⟩
  | succ budget ih =>
    obtain ⟨next, m₁, ht, h₁⟩ := hm.turn hp i
    rw [StreamEditor.runFrom, bind_ok ht]
    cases next with
    | some j => exact ih (h₁.weaken fun _ => rfl) j
    | none => exact .inl ⟨m₁, rfl, h₁.weaken False.elim⟩

lemma succeeds_start (hm : m.editor.program = some p) (t : Text) :
    Succeeds (start p (.text t) .nowhere) m fun more => Sound p (more = true) :=
  ⟨_, _, rfl, rfl, hm, id⟩

lemma apply_eq (hm : m.editor.program = some p) (budget : Nat) (source : Source) (destination : Destination) :
    apply budget source destination m = (do
      if ← start p source destination then runFrom p budget 0) m := by
  rw [apply, bind_ok (show editor m = .ok m.editor m from rfl), hm]

lemma apply_ready (hm : m.editor.program = some p) (hp : ∀ c ∈ p, c.ready = true) (budget : Nat) (t : Text) :
    (∃ m', apply budget (.text t) .nowhere m = .ok () m' ∧ m'.editor.program = some p) ∨
      ∃ m', apply budget (.text t) .nowhere m = .error .outOfSteps m' := by
  obtain ⟨more, m₁, hs, h₁⟩ := succeeds_start hm t
  rw [apply_eq hm, bind_ok hs]
  cases more with
  | true =>
    rcases (h₁.weaken fun _ => rfl).runFrom hp budget 0 with ⟨m₂, hr, h₂⟩ | ⟨m₂, hr⟩
    · exact .inl ⟨m₂, hr, h₂.program⟩
    · exact .inr ⟨m₂, hr⟩
  | false => exact .inl ⟨m₁, rfl, h₁.program⟩

end

def Applied (m m' : Machine) : Prop := ∃ budget t, apply budget (.text t) .nowhere m = .ok () m'

inductive Tried (t : Text) (m : Machine) (p : Program) : Nat → Machine → Prop
  | first {m' : Machine} : m.editor.program = some p → start p (.text t) .nowhere m = .ok true m' → Tried t m p 0 m'
  | next {i j : Nat} {m₁ m₂ : Machine} : Tried t m p i m₁ → turn p i m₁ = .ok (some j) m₂ → Tried t m p j m₂

lemma program_of_tried {t : Text} {m m' : Machine} {p : Program} {i : Nat} (h : Tried t m p i m') :
    m.editor.program = some p := by
  induction h with
  | first hm _ => exact hm
  | next _ _ ih => exact ih

section

variable {p : Program} (hp : ∀ c ∈ p, c.ready = true)
include hp

lemma program_of_applied {m m' : Machine} (hm : m.editor.program = some p)
    (h : Relation.ReflTransGen Applied m m') : m'.editor.program = some p := by
  induction h with
  | refl => exact hm
  | tail _ hs ih =>
    obtain ⟨budget, t, hs⟩ := hs
    rcases apply_ready ih hp budget t with ⟨m₁, hr, h₁⟩ | ⟨m₁, hr⟩
    · rw [hs] at hr
      cases hr
      exact h₁
    · rw [hs] at hr
      cases hr

lemma sound_of_tried {t : Text} {m m' : Machine} {i : Nat} (h : Tried t m p i m') : Sound p True m' := by
  induction h with
  | first hm hs =>
    obtain ⟨more, m₁, hr, h₁⟩ := succeeds_start hm t
    rw [hs] at hr
    cases hr
    exact h₁.weaken fun _ => rfl
  | next _ hs ih =>
    obtain ⟨next, m₁, hr, h₁⟩ := ih.turn hp _
    rw [hs] at hr
    cases hr
    exact h₁.weaken fun _ => rfl

end

section

variable {m m₁ : Machine} {p : Program} {n : Nat}

lemma readProgram_eq {lines : List Text} (h : Script.program lines m.nextNumber = .ok p n) :
    readProgram lines m = .ok p { m with nextNumber := n } := by
  rw [readProgram, h]

lemma settle_ok {α : Type} {a : Attempt α} {keep : α → Edit Unit} (h : settle a keep m = .ok () m₁) :
    a.failure = none ∧ keep a.value m = .ok () m₁ := by
  obtain ⟨_, m₂, hk, h⟩ := Outcome.bind_eq_ok.1 h
  cases hf : a.failure with
  | none =>
    rw [hf] at h
    cases h
    exact ⟨rfl, hk⟩
  | some e =>
    rw [hf] at h
    cases h

lemma of_install {lines : List Text} (h : install lines m = .ok () m₁)
    (hp : Script.program lines m.nextNumber = .ok p n) :
    (p.prepare ⟨m.editor.extended, m.deferred⟩).failure = none ∧
      m₁.editor = { m.editor with
        program := some (p.prepare ⟨m.editor.extended, m.deferred⟩).value, ranges := [] } ∧
      ((p.prepare ⟨m.editor.extended, m.deferred⟩).value.createFiles m.store).failure = none ∧
      m₁.store = ((p.prepare ⟨m.editor.extended, m.deferred⟩).value.createFiles m.store).value := by
  obtain ⟨q, m₂, hr, h⟩ := Outcome.bind_eq_ok.1 h
  rw [readProgram_eq hp] at hr
  cases hr
  obtain ⟨_, m₂, hg, h⟩ := Outcome.bind_eq_ok.1 h
  cases hg
  obtain ⟨_, m₃, hs, h⟩ := Outcome.bind_eq_ok.1 h
  obtain ⟨hf, hu⟩ := settle_ok hs
  cases hu
  obtain ⟨_, m₄, hg, h⟩ := Outcome.bind_eq_ok.1 h
  cases hg
  obtain ⟨hc, hw⟩ := settle_ok h
  cases hw
  exact ⟨hf, rfl, hc, rfl⟩

lemma loadLines_eq (lines : List Text) (m : Machine) :
    loadLines lines m = install (Script.pack lines)
      { m with editor := { m.editor with quiet := asksQuiet lines || m.editor.quiet } } := by
  rw [loadLines]
  cases asksQuiet lines <;> rfl

lemma editor_of_loadLines {lines : List Text} (h : loadLines lines m = .ok () m₁)
    (hp : Script.program (Script.pack lines) m.nextNumber = .ok p n) :
    (p.prepare ⟨m.editor.extended, m.deferred⟩).failure = none ∧
      m₁.editor = { m.editor with
        program := some (p.prepare ⟨m.editor.extended, m.deferred⟩).value, ranges := [],
        quiet := asksQuiet lines || m.editor.quiet } := by
  rw [loadLines_eq] at h
  obtain ⟨hf, he, -⟩ := of_install h hp
  exact ⟨hf, he⟩

lemma store_of_loadLines {lines : List Text} (h : loadLines lines m = .ok () m₁)
    (hp : Script.program (Script.pack lines) m.nextNumber = .ok p n) :
    ((p.prepare ⟨m.editor.extended, m.deferred⟩).value.createFiles m.store).failure = none ∧
      m₁.store = ((p.prepare ⟨m.editor.extended, m.deferred⟩).value.createFiles m.store).value := by
  rw [loadLines_eq] at h
  exact (of_install h hp).2.2

lemma program_of_install {lines : List Text} (h : install lines m = .ok () m₁) :
    ∃ p n, Script.program lines m.nextNumber = .ok p n := by
  obtain ⟨q, m₂, hr, -⟩ := Outcome.bind_eq_ok.1 h
  rw [readProgram] at hr
  cases hp : Script.program lines m.nextNumber with
  | ok p n => exact ⟨p, n, rfl⟩
  | error e n =>
    rw [hp] at hr
    cases hr

lemma program_of_loadLines {lines : List Text} (h : loadLines lines m = .ok () m₁) :
    ∃ p n, Script.program (Script.pack lines) m.nextNumber = .ok p n := by
  rw [loadLines_eq] at h
  obtain ⟨p, n, hp⟩ := program_of_install h
  exact ⟨p, n, hp⟩

lemma loaded_of_loadLines {lines : List Text} (h : loadLines lines m = .ok () m₁)
    (hp : Script.program (Script.pack lines) m.nextNumber = .ok p n) :
    (p.prepare ⟨m.editor.extended, m.deferred⟩).failure = none ∧
      m₁.editor.program = some (p.prepare ⟨m.editor.extended, m.deferred⟩).value := by
  obtain ⟨hf, he⟩ := editor_of_loadLines h hp
  exact ⟨hf, he ▸ rfl⟩

end

/-- A script whose commands are safe is loaded once and then run over any number of texts: no run fails,
and there is a pattern space whenever a command is tried. -/
theorem loaded_script_never_fails {script : Text} {m m₁ m₂ : Machine} {p : Program} {n : Nat}
    (hd : m.deferred = false) (hl : loadText script m = .ok () m₁)
    (hp : Script.program (Script.pack (Text.splitLines script)) m.nextNumber = .ok p n)
    (hs : ∀ c ∈ p, c.Safe m.editor.extended) (hr : Relation.ReflTransGen Applied m₁ m₂) (t : Text) :
    (∀ budget, (∃ m₃, apply budget (.text t) .nowhere m₂ = .ok () m₃) ∨
      ∃ m₃, apply budget (.text t) .nowhere m₂ = .error .outOfSteps m₃) ∧
    ∀ q i m₃, Tried t m₂ q i m₃ →
      m₃.editor.pattern.isSome = true ∧ ∃ next m₄, turn q i m₃ = .ok next m₄ := by
  obtain ⟨hf, hq⟩ := loaded_of_loadLines hl hp
  have hready := Program.ready_prepare hd hs hf
  have hq₂ := program_of_applied hready hq hr
  refine ⟨fun budget => ?_, ?_⟩
  · rcases apply_ready hq₂ hready budget t with ⟨m₃, h₃, -⟩ | h₃
    · exact .inl ⟨m₃, h₃⟩
    · exact .inr h₃
  · intro q i m₃ ht
    obtain rfl : q = _ := Option.some.inj ((program_of_tried ht).symm.trans hq₂)
    have h₃ := sound_of_tried hready ht
    obtain ⟨next, m₄, hturn, -⟩ := h₃.turn hready i
    exact ⟨h₃.pattern trivial, next, m₄, hturn⟩

def sampleEdits : Text :=
  ['$', '!', 'N', ';', 's', '/', '\\', '(', 'a', '\\', ')', 'b', '*', '/', '[', '\\', '1', '&', ']', '/', '2', ';',
    'P', ';', 'D']

def sampleSubstitution : Substitution :=
  ⟨some ['\\', '(', 'a', '\\', ')', 'b', '*'], ['[', '\\', '1', '&', ']'], 2, false, false, false, [], .pending⟩

def sampleProgram : Program :=
  [⟨1, some .last, none, true, .nextAppend, some 1, none⟩,
    ⟨2, none, none, false, .substitute sampleSubstitution, some 2, none⟩,
    ⟨3, none, none, false, .printFirst, some 3, none⟩, ⟨4, none, none, false, .deleteFirst, none, none⟩]

lemma program_sampleEdits :
    ∃ n, Script.program (Script.pack (Text.splitLines sampleEdits)) 1 = .ok sampleProgram n := by
  apply Outcome.of_result?
  decide +kernel

lemma safe_sampleSubstitution : sampleSubstitution.Safe false where
  named := by decide
  unwritten := rfl
  count_lt := by decide
  references_le := by
    intro source x r hp hx hr
    obtain rfl : _ = source := Option.some.inj hp
    have hg : ((Regexp.ofScript false false false ['\\', '(', 'a', '\\', ')', 'b', '*']).toOption.map
        fun x => x.bind fun x => x.compiled.map Regex.groups) = some (some 1) := by
      decide +kernel
    have hx' : Regexp.ofScript false false false ['\\', '(', 'a', '\\', ')', 'b', '*'] = .ok (some x) := hx
    rw [hx'] at hg
    have h1 : r.groups = 1 := by simpa [Except.toOption, hr] using hg
    have hk : Dialect.references sampleSubstitution.replacement = [1] := by decide
    rw [h1, hk]
    decide

lemma safe_sampleProgram : ∀ c ∈ sampleProgram, c.Safe false := by
  intro c hc
  simp only [sampleProgram, List.mem_cons, List.not_mem_nil, or_false] at hc
  rcases hc with rfl | rfl | rfl | rfl
  · exact ⟨by decide, by decide, trivial⟩
  · exact ⟨by decide, by decide, safe_sampleSubstitution⟩
  · exact ⟨by decide, by decide, trivial⟩
  · exact ⟨by decide, by decide, trivial⟩

def sampleMachine : Machine := ⟨{}, [], 1, false, #[], 0⟩

lemma apply_sampleEdits :
    ∃ m₁ m₂, loadText sampleEdits sampleMachine = .ok () m₁ ∧
      apply 20 (.text ['a', 'a', '\n', 'b']) .nowhere m₁ = .ok () m₂ := by
  have hr : Outcome.result? ((do
      loadText sampleEdits
      apply 20 (.text ['a', 'a', '\n', 'b']) .nowhere) sampleMachine) = some () := by
    decide +kernel
  obtain ⟨m₂, h⟩ := Outcome.of_result? hr
  obtain ⟨_, m₁, hl, ha⟩ := Outcome.bind_eq_ok.1 h
  exact ⟨m₁, m₂, hl, ha⟩

theorem loaded_sampleEdits_never_fails :
    sampleMachine.deferred = false ∧ (∀ c ∈ sampleProgram, c.Safe sampleMachine.editor.extended) ∧
    ∃ m₁ m₂, loadText sampleEdits sampleMachine = .ok () m₁ ∧ Relation.ReflTransGen Applied m₁ m₂ ∧
      ∀ t, (∀ budget, (∃ m₃, apply budget (.text t) .nowhere m₂ = .ok () m₃) ∨
          ∃ m₃, apply budget (.text t) .nowhere m₂ = .error .outOfSteps m₃) ∧
        ∀ q i m₃, Tried t m₂ q i m₃ →
          m₃.editor.pattern.isSome = true ∧ ∃ next m₄, turn q i m₃ = .ok next m₄ := by
  obtain ⟨m₁, m₂, hl, ha⟩ := apply_sampleEdits
  obtain ⟨n, hp⟩ := program_sampleEdits
  have hr : Relation.ReflTransGen Applied m₁ m₂ := .single ⟨_, _, ha⟩
  refine ⟨rfl, safe_sampleProgram, m₁, m₂, hl, hr, fun t => ?_⟩
  exact loaded_script_never_fails rfl hl hp safe_sampleProgram hr t

end StreamEditor
