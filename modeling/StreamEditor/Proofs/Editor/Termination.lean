import StreamEditor.Proofs.Editor.CycleEnd
import StreamEditor.Proofs.Editor.Safety
import StreamEditor.Proofs.Script.Forward

/-! Runs of scripts that only jump ahead end. The rank of a run counts the commands from the present one to
the end of the script, and the whole script for each line not read yet; every command tried makes it smaller. -/

namespace StreamEditor

open Edit Outcome

namespace LineReader

def left : LineReader → Nat
  | plain source => source.length
  | buffered none _ => 0
  | buffered (some _) source => source.length + 1

lemma left_readLine (r : LineReader) : r.readLine.2.left = r.left - 1 := by
  cases r with
  | plain source => simp [readLine, left]
  | buffered ahead source =>
    cases ahead with
    | none => rfl
    | some line => cases source <;> rfl

lemma isSome_readLine (r : LineReader) : r.readLine.1.isSome = true ↔ 0 < r.left := by
  cases r with
  | plain source => cases source <;> simp [readLine, left]
  | buffered ahead source => cases ahead <;> simp [readLine, left]

lemma left_ofLines (asksLast : Bool) (lines : List Text) : (ofLines asksLast lines).left = lines.length := by
  cases asksLast <;> cases lines <;> rfl

end LineReader

abbrev Machine.unread (m : Machine) : Nat := m.editor.reader.left

section

variable {α : Type} {x : Edit α} {m m' : Machine}

lemma WorkBy.unread_le (h : Work m m') : m'.unread ≤ m.unread := by
  cases h with
  | remember h =>
    cases h
    exact Nat.le_refl _
  | display h => cases h <;> exact Nat.le_refl _
  | read =>
    rw [Machine.unread, LineReader.left_readLine]
    exact Nat.sub_le ..
  | _ => exact Nat.le_refl _

lemma Move.unread_le {i : Nat} (h : Move i m m') : m'.unread ≤ m.unread := by
  rcases h with h | h
  · obtain ⟨x, ranges, rfl⟩ := h.exists_eq
    exact Nat.le_refl _
  · exact h.unread_le

lemma unread_le_of_move {i : Nat} (hx : Within (Move i) x) {a : α} (h : x m = .ok a m') : m'.unread ≤ m.unread := by
  have hf := hx.preserves (P := fun m' => m'.unread ≤ m.unread) (fun _ _ hr hle => Nat.le_trans hr.unread_le hle)
    (Nat.le_refl m.unread)
  rwa [h] at hf

lemma unread_le_of_work (hx : Within Work x) {a : α} (h : x m = .ok a m') : m'.unread ≤ m.unread :=
  unread_le_of_move (hx.mono fun _ _ => .inr) (i := 0) h

lemma unread_of_readLine {line : Option Text} (h : readLine m = .ok line m') (hl : line.isSome = true) :
    m'.unread + 1 = m.unread := by
  obtain ⟨hu, hs⟩ : m'.unread = m.unread - 1 ∧ line.isSome = m.editor.reader.readLine.1.isSome := by
    cases h
    exact ⟨LineReader.left_readLine _, Option.isSome_map⟩
  have hpos : 0 < m.unread := (LineReader.isSome_readLine m.editor.reader).1 (hs ▸ hl)
  omega

lemma unread_of_shown (hx : Within Show x) {a : α} (h : x m = .ok a m') : m'.unread = m.unread :=
  congrArg LineReader.left (keeps_shown hx (g := Editor.reader) (fun _ _ _ => rfl) m a m' h)

lemma unread_lt_of_endCycle {c : Command} {selected : Bool} (hc : c.action ≠ .deleteFirst)
    (h : endCycle c selected m = .ok true m') : m'.unread < m.unread := by
  obtain ⟨_, m₁, hs, h⟩ := Outcome.bind_eq_ok.1 h
  have h₁ := unread_le_of_work (within_showCycle c) hs
  split at h
  · cases h
  · rw [nextCycle_of_ne m₁ hc] at h
    obtain ⟨line, m₂, hr, h⟩ := Outcome.bind_eq_ok.1 h
    obtain ⟨_, m₃, hp, h⟩ := Outcome.bind_eq_ok.1 h
    obtain ⟨_, m₄, ho, h⟩ := Outcome.bind_eq_ok.1 h
    obtain ⟨hl, rfl⟩ := EStateM.Result.ok.inj h
    have h₂ := unread_of_readLine hr hl
    have h₃ := unread_le_of_work (within_setPattern line) hp
    have h₄ := unread_of_shown within_closeOutput ho
    omega

end

lemma of_turn {p : Program} {i j : Nat} {c : Command} {m m' : Machine} (hc : p[i]? = some c)
    (h : turn p i m = .ok (some j) m') :
    ∃ selected flow m₁ m₂, c.attempt i m = .ok (selected, flow) m₁ ∧ record c selected m₁ = .ok () m₂ ∧
      (c.follow flow = some j ∧ m₂ = m' ∨ j = 0 ∧ endCycle c selected m₂ = .ok true m') := by
  rw [turn, hc] at h
  obtain ⟨⟨selected, flow⟩, m₁, ha, h⟩ := Outcome.bind_eq_ok.1 h
  obtain ⟨_, m₂, hr, h⟩ := Outcome.bind_eq_ok.1 h
  refine ⟨selected, flow, m₁, m₂, ha, hr, ?_⟩
  cases hf : c.follow flow with
  | some k =>
    rw [hf] at h
    cases h
    exact .inl ⟨rfl, rfl⟩
  | none =>
    rw [hf] at h
    obtain ⟨more, m₃, he, h⟩ := Outcome.bind_eq_ok.1 h
    cases more with
    | true =>
      cases h
      exact .inr ⟨rfl, he⟩
    | false => cases h

def rank (p : Program) (i : Nat) (m : Machine) : Nat := p.length - i + p.length * m.unread

section

variable {p : Program} (hp : p.Forward) (hd : ∀ c ∈ p, c.action ≠ .deleteFirst)
include hp hd

lemma rank_turn {i j : Nat} {m m' : Machine} (hi : i < p.length) (h : turn p i m = .ok (some j) m') :
    j < p.length ∧ rank p j m' < rank p i m := by
  have hc := List.getElem?_eq_getElem hi
  obtain ⟨selected, flow, m₁, m₂, ha, hr, hnext⟩ := of_turn hc h
  have h₁ := unread_le_of_move (within_attempt i _) ha
  have h₂ := unread_le_of_work (within_record _ selected) hr
  rcases hnext with ⟨hf, rfl⟩ | ⟨rfl, he⟩
  · have hj : i < j ∧ j < p.length := by
      refine hp i _ hc j ?_
      cases flow with
      | onward => exact .inl hf
      | branch => exact .inr hf
      | stop => cases hf
    have := Nat.mul_le_mul_left p.length (Nat.le_trans h₂ h₁)
    refine ⟨hj.2, ?_⟩
    rw [rank, rank]
    omega
  · have h₃ := unread_lt_of_endCycle (hd _ (List.getElem_mem hi)) he
    have := Nat.mul_le_mul_left p.length (show m'.unread + 1 ≤ m.unread by omega)
    rw [Nat.mul_succ] at this
    refine ⟨by omega, ?_⟩
    rw [rank, rank]
    omega

end

/-- A run tries so many commands: a smaller budget stops it, and with any other it ends in one and the same
way, which is not for lack of a budget. -/
def Takes (run : Nat → EStateM.Result Failure Machine Unit) (tried : Nat) : Prop :=
  ∃ r, (∀ m, r ≠ .error .outOfSteps m) ∧ ∀ budget,
    (tried ≤ budget → run budget = r) ∧ (budget < tried → ∃ m, run budget = .error .outOfSteps m)

section

variable {run run' : Nat → EStateM.Result Failure Machine Unit} {r : EStateM.Result Failure Machine Unit}

lemma takes_zero (hr : ∀ m, r ≠ .error .outOfSteps m) (h : ∀ budget, run budget = r) : Takes run 0 :=
  ⟨r, hr, fun budget => ⟨fun _ => h budget, fun hlt => absurd hlt (Nat.not_lt_zero budget)⟩⟩

lemma Takes.succ {tried : Nat} {m : Machine} (h : Takes run' tried) (hz : run 0 = .error .outOfSteps m)
    (hs : ∀ budget, run (budget + 1) = run' budget) : Takes run (tried + 1) := by
  obtain ⟨r, hr, h⟩ := h
  refine ⟨r, hr, fun budget => ?_⟩
  cases budget with
  | zero => exact ⟨fun hle => absurd hle (Nat.not_succ_le_zero tried), fun _ => ⟨m, hz⟩⟩
  | succ budget =>
    rw [hs]
    exact ⟨fun hle => (h budget).1 (by omega), fun hlt => (h budget).2 (by omega)⟩

end

section

variable {p : Program} (hp : p.Forward) (hd : ∀ c ∈ p, c.action ≠ .deleteFirst)
include hp hd

-- The bound is generalised: a rank that becomes smaller bounds the commands that are left.
lemma exists_takes_runFrom {bound i : Nat} {m : Machine} (hi : i < p.length) (hb : rank p i m ≤ bound) :
    ∃ tried ≤ bound, Takes (fun budget => runFrom p budget i m) tried := by
  induction bound generalizing i m with
  | zero =>
    rw [rank] at hb
    omega
  | succ bound ih =>
    cases ht : turn p i m with
    | error e m' =>
      have he : Takes (fun _ => .error e m') 0 := by
        refine takes_zero (fun m₁ h => ?_) fun _ => rfl
        cases h
        exact (within_turn p i).in_budget m _ ht
      exact ⟨1, by omega, he.succ rfl fun budget => bind_error ht⟩
    | ok next m' =>
      cases next with
      | none =>
        have he : Takes (fun _ => .ok () m') 0 := takes_zero (fun _ h => by cases h) fun _ => rfl
        exact ⟨1, by omega, he.succ rfl fun budget => bind_ok ht⟩
      | some j =>
        obtain ⟨hj, hlt⟩ := rank_turn hp hd hi ht
        obtain ⟨tried, hle, h⟩ := ih hj (show rank p j m' ≤ bound by omega)
        exact ⟨tried + 1, by omega, h.succ rfl fun budget => bind_ok ht⟩

end

section

variable {p : Program} {source : Source} {destination : Destination} {lines : List Text} {m m' : Machine}
  (hs : source.lines m.store = .ok lines)
include hs

lemma start_in_budget : start p source destination m ≠ .error .outOfSteps m' := by
  rw [start_eq hs]
  exact (within_opening destination).in_budget _ m'

lemma unread_start (h : start p source destination m = .ok true m') : m'.unread + 1 = lines.length := by
  rw [start_eq hs] at h
  obtain ⟨_, m₁, ho, h⟩ := Outcome.bind_eq_ok.1 h
  obtain ⟨line, m₂, hr, h⟩ := Outcome.bind_eq_ok.1 h
  obtain ⟨_, m₃, hp, h⟩ := Outcome.bind_eq_ok.1 h
  obtain ⟨hl, rfl⟩ := EStateM.Result.ok.inj h
  have h₁ : m₁.unread = lines.length :=
    (unread_of_shown (within_openOutput destination) ho).trans (LineReader.left_ofLines p.asksLast lines)
  have h₂ := unread_of_readLine hr hl
  cases hp
  exact h₂.trans h₁

end

lemma exists_takes_apply {p : Program} (hp : p.Forward) (hd : ∀ c ∈ p, c.action ≠ .deleteFirst) (hpos : 0 < p.length)
    {m : Machine} (hm : m.editor.program = some p) {source : Source} {lines : List Text}
    (hs : source.lines m.store = .ok lines) (destination : Destination) :
    ∃ tried ≤ p.length * lines.length, Takes (fun budget => apply budget source destination m) tried := by
  simp only [apply_eq hm]
  cases hst : start p source destination m with
  | error e m₁ =>
    refine ⟨0, Nat.zero_le _, takes_zero (fun m₂ h => ?_) fun budget => bind_error hst⟩
    cases h
    exact start_in_budget hs hst
  | ok more m₁ =>
    simp only [bind_ok hst]
    cases more with
    | false => exact ⟨0, Nat.zero_le _, takes_zero (fun _ h => by cases h) fun _ => rfl⟩
    | true =>
      refine exists_takes_runFrom hp hd hpos (Nat.le_of_eq ?_)
      rw [rank, ← unread_start hs hst, Nat.mul_succ]
      omega

/-- A script that deletes no first line and only jumps ahead ends on every input: no more commands are tried
than the script has, times the number of lines. -/
theorem forward_script_ends {script : Text} {m m₁ m₂ : Machine} {p : Program} {n : Nat}
    (hl : loadText script m = .ok () m₁)
    (hp : Script.program (Script.pack (Text.splitLines script)) m.nextNumber = .ok p n)
    (hd : ∀ c ∈ p, c.action ≠ .deleteFirst) (ha : p.LabelsAhead)
    (hm : m₂.editor.program = m₁.editor.program) {source : Source} {lines : List Text}
    (hs : source.lines m₂.store = .ok lines) (destination : Destination) :
    ∃ tried ≤ p.length * lines.length, Takes (fun budget => apply budget source destination m₂) tried := by
  obtain ⟨-, hq⟩ := loaded_of_loadLines hl hp
  obtain ⟨cs, -, -, hlink⟩ := Script.link_of_program hp
  have hpos : 0 < p.length := List.length_pos_iff.2 (Script.of_link hlink).1
  have hf := (Program.forward_of_program hp ha).prepare ⟨m.editor.extended, m.deferred⟩
  have hlen := Program.length_prepare ⟨m.editor.extended, m.deferred⟩ p
  rw [← hlen] at hpos ⊢
  exact exists_takes_apply hf (Program.deleteFirst_prepare hd _) hpos (hm.trans hq) hs destination

def sampleJumps : Text := ['2', 'b', 'e', ';', '$', '!', 'N', ';', '{', 'p', ';', '}', ';', ':', 'e']

def sampleForward : Program :=
  [⟨1, some (.line 2), none, false, .branch ['e'], some 1, some 5⟩,
    ⟨2, some .last, none, true, .nextAppend, some 2, none⟩, ⟨3, none, none, false, .openBlock, some 5, some 3⟩,
    ⟨4, none, none, false, .print, some 4, none⟩, ⟨5, none, none, false, .closeBlock, some 5, none⟩,
    ⟨6, none, none, false, .label ['e'], none, none⟩]

lemma labelsAhead_sampleForward : sampleForward.LabelsAhead := by
  intro i c name hi ha _
  match i, hi with
  | 0, hi =>
    cases hi
    rcases ha with ha | ha <;> cases ha
    exact ⟨5, _, by decide, rfl, rfl⟩
  | 1, hi | 2, hi | 3, hi | 4, hi | 5, hi =>
    cases hi
    rcases ha with ha | ha <;> cases ha

theorem forward_sampleJumps_ends :
    (∀ c ∈ sampleForward, c.action ≠ .deleteFirst) ∧ sampleForward.LabelsAhead ∧
      ∃ m, loadText sampleJumps sampleMachine = .ok () m ∧
        ∃ tried ≤ 6 * 3, Takes (fun budget => apply budget (.text ['a', '\n', 'b', '\n', 'c']) .stream m) tried := by
  have hd : ∀ c ∈ sampleForward, c.action ≠ .deleteFirst := by decide
  obtain ⟨m, hl⟩ : ∃ m, loadText sampleJumps sampleMachine = .ok () m := Outcome.of_result? (by decide +kernel)
  obtain ⟨n, hp⟩ : ∃ n, Script.program (Script.pack (Text.splitLines sampleJumps)) 1 = .ok sampleForward n :=
    Outcome.of_result? (by decide +kernel)
  have hs : Source.lines m.store (.text ['a', '\n', 'b', '\n', 'c']) = .ok [['a', '\n'], ['b', '\n'], ['c']] := rfl
  exact ⟨hd, labelsAhead_sampleForward, m, hl, forward_script_ends hl hp hd labelsAhead_sampleForward rfl hs .stream⟩

end StreamEditor
