import StreamEditor.Proofs.Editor.Work
import StreamEditor.Proofs.Script.Blocks

namespace StreamEditor

open Edit

def Action.endsCycle (reader : LineReader) : Action → Bool
  | .change _ | .delete | .deleteFirst | .quit => true
  | .next | .nextAppend => !reader.readLine.1.isSome
  | _ => false

def Action.flow (reader : LineReader) (a : Action) : Flow :=
  if a.endsCycle reader then .stop else if a = .openBlock then .branch else .onward

section

abbrev reader (m : Machine) : LineReader := m.editor.reader

lemma keeps_editor {γ : Type} {g : Machine → γ} : Outcome.Keeps g editor := .bind .get fun _ => .pure _

lemma keeps_pattern {γ : Type} {g : Machine → γ} : Outcome.Keeps g pattern := .bind keeps_editor fun _ => .pure _

lemma keeps_reader_print (line : Text) : Outcome.Keeps reader (print line) :=
  keeps_shown (within_print line) fun _ _ _ => rfl

lemma keeps_reader_selected (i : Nat) (c : Command) : Outcome.Keeps reader (c.selected i) := by
  refine (within_selected i c).keeps fun m m' h => ?_
  cases h with
  | remember h =>
    cases h
    rfl
  | enter => rfl
  | leave => rfl

end

section

variable {m m' : Machine}

def Gives (x : Edit Flow) (flow : Flow) : Prop := ∀ m f m', x m = .ok f m' → f = flow

lemma gives_pure (flow : Flow) : Gives (pure flow) flow := by
  intro m f m' h
  cases h
  rfl

lemma gives_bind {α : Type} {x : Edit α} {f : α → Edit Flow} {flow : Flow} (h : ∀ a, Gives (f a) flow) :
    Gives (x >>= f) flow := by
  intro m g m' hb
  obtain ⟨a, m₁, -, hf⟩ := Outcome.bind_eq_ok.1 hb
  exact h a m₁ g m' hf

lemma gives_perform {c : Command} (hc : c.action.kind ≠ .branching)
    (hn : c.action ≠ .next ∧ c.action ≠ .nextAppend) (i : Nat) (reader : LineReader) :
    Gives (c.perform i) (c.action.flow reader) := by
  rw [Command.perform]
  cases ha : c.action <;> simp only [ha, ne_eq, not_true_eq_false, false_and, and_false, Action.kind] at hc hn ⊢
  all_goals repeat first | exact gives_pure _ | refine gives_bind fun _ => ?_ | split

lemma isSome_of_readLine {line : Option Text} (h : readLine m = .ok line m') :
    (reader m).readLine.1.isSome = line.isSome := by
  have hl : (reader m).readLine.1.map Text.chomp = line := by
    cases h
    rfl
  rw [← hl, Option.isSome_map]

lemma flow_readLine {flow : Flow} (h : (do
      let line ← readLine
      setPattern line
      return if line.isSome then .onward else .stop : Edit Flow) m = .ok flow m') :
    flow = Action.next.flow (reader m) := by
  obtain ⟨line, m₁, hr, h⟩ := Outcome.bind_eq_ok.1 h
  have hl := isSome_of_readLine hr
  cases h
  cases line <;> simp [Action.flow, Action.endsCycle, hl]

lemma flow_next {i : Nat} {c : Command} {flow : Flow} (ha : c.action = .next)
    (h : c.perform i m = .ok flow m') : flow = c.action.flow (reader m) := by
  simp only [Command.perform, ha] at h ⊢
  obtain ⟨e, m₁, he, h⟩ := Outcome.bind_eq_ok.1 h
  cases he
  by_cases hq : (!m.editor.quiet) = true
  · rw [if_pos hq] at h
    obtain ⟨t, m₁, ht, h⟩ := Outcome.bind_eq_ok.1 h
    obtain ⟨_, m₂, hp, h⟩ := Outcome.bind_eq_ok.1 h
    have hr : reader m₁ = reader m := keeps_pattern m t m₁ ht
    rw [flow_readLine h, keeps_reader_print t m₁ _ m₂ hp, hr]
  · rw [if_neg hq] at h
    exact flow_readLine h

lemma flow_nextAppend {i : Nat} {c : Command} {flow : Flow} (ha : c.action = .nextAppend)
    (h : c.perform i m = .ok flow m') : flow = c.action.flow (reader m) := by
  simp only [Command.perform, ha] at h
  obtain ⟨line, m₁, hr, h⟩ := Outcome.bind_eq_ok.1 h
  have hl := isSome_of_readLine hr
  cases line with
  | none =>
    cases h
    simp [ha, Action.flow, Action.endsCycle, hl]
  | some line =>
    cases h
    simp [ha, Action.flow, Action.endsCycle, hl]

lemma flow_of_perform {i : Nat} {c : Command} {flow : Flow} (hc : c.action.kind ≠ .branching)
    (h : c.perform i m = .ok flow m') : flow = c.action.flow (reader m) := by
  by_cases hn : c.action = .next
  · exact flow_next hn h
  · by_cases ha : c.action = .nextAppend
    · exact flow_nextAppend ha h
    · exact gives_perform hc ⟨hn, ha⟩ i (reader m) m flow m' h

lemma flow_of_attempt {i : Nat} {c : Command} {selected : Bool} {flow : Flow}
    (hc : c.action.kind ≠ .branching) (h : c.attempt i m = .ok (selected, flow) m') :
    flow = if selected then c.action.flow (reader m) else .onward := by
  obtain ⟨found, m₁, hs, h⟩ := Outcome.bind_eq_ok.1 h
  have hr := keeps_reader_selected i c m found m₁ hs
  cases found with
  | true =>
    obtain ⟨f, m₂, hp, h⟩ := Outcome.bind_eq_ok.1 h
    cases h
    rw [flow_of_perform hc hp, hr]
    rfl
  | false =>
    cases h
    rfl

end

end StreamEditor
