import StreamEditor.Proofs.Editor.Flow
import StreamEditor.Proofs.Script.Links

namespace StreamEditor

open Edit

/-- What has happened in a cycle: how many commands were tried, the one tried last and whether it was
selected, and whether it ended the cycle. -/
structure Course where
  tried : Nat
  last : Option Command
  selected : Bool
  ended : Bool

def Course.start : Course := ⟨0, none, false, false⟩

def Command.tryIn (i : Nat) (c : Command) (s : Course) : Edit Course := do
  let reader := (← editor).reader
  let (selected, _) ← c.attempt i
  record c selected
  return ⟨s.tried + 1, some c, selected, selected && c.action.endsCycle reader⟩

def BlockTree.run (i : Nat) (s : Course) : BlockTree → Edit Course
  | nil => return s
  | command c _ rest => do
    let s ← c.tryIn i s
    if s.ended then return s else rest.run (i + 1) s
  | block opening _ body closing _ rest => do
    let s ← opening.tryIn i s
    if s.selected then
      let s ← body.run (i + 1) s
      if s.ended then return s
      else
        let s ← closing.tryIn (i + 1 + body.size) s
        rest.run (i + 2 + body.size) s
    else rest.run (i + 2 + body.size) s

def Course.finish (s : Course) : Edit Bool :=
  match s.last with
  | some c => endCycle c s.selected
  | none => return false

def goOn (p : Program) (budget : Nat) (s : Course) : Option Nat → Edit Unit
  | some i => runFrom p (budget - s.tried) i
  | none => do if ← s.finish then runFrom p (budget - s.tried) 0

def Script.place (size i : Nat) : Option Nat := if i < size then some i else none

lemma runFrom_attempt {p : Program} {i : Nat} {c : Command} (hc : p[i]? = some c) {budget : Nat} {s : Course}
    (hs : s.tried < budget) (ended : Bool × Flow → Bool) :
    runFrom p (budget - s.tried) i = (do
      let r ← c.attempt i
      record c r.1
      goOn p budget ⟨s.tried + 1, some c, r.1, ended r⟩ (c.follow r.2)) := by
  have hb : budget - s.tried = budget - (s.tried + 1) + 1 := by omega
  rw [hb, runFrom, turn, hc]
  simp only [bind_assoc]
  congr 1
  funext r
  congr 1
  funext _
  cases c.follow r.2 with
  | some j => rfl
  | none =>
    simp only [bind_assoc]
    change _ = (endCycle c r.1 >>= _)
    congr 1
    funext more
    cases more <;> rfl

lemma follow_flow (c : Command) (selected : Bool) (r : LineReader) :
    c.follow (if selected then c.action.flow r else .onward) =
      if selected && c.action.endsCycle r then none
      else if selected ∧ c.action = Action.openBlock then c.branch else c.next := by
  cases selected with
  | false => rfl
  | true =>
    simp only [Action.flow, Bool.true_and, true_and, if_true]
    split
    · rfl
    · split <;> rfl

lemma runFrom_tryIn {p : Program} {i : Nat} {c : Command} (hc : p[i]? = some c)
    (hk : c.action.kind ≠ .branching) {budget : Nat} {s : Course} (hs : s.tried < budget) (m : Machine) :
    runFrom p (budget - s.tried) i m = (do
      let s' ← c.tryIn i s
      goOn p budget s' (if s'.ended then none
        else if s'.selected ∧ c.action = Action.openBlock then c.branch else c.next)) m := by
  rw [runFrom_attempt hc hs fun r => r.1 && c.action.endsCycle (reader m)]
  simp only [Command.tryIn, bind_assoc, pure_bind]
  change _ = (c.attempt i >>= _) m
  apply Outcome.bind_congr
  rintro ⟨selected, flow⟩ m₁ ha
  apply Outcome.bind_congr
  intro _ m₂ _
  rw [flow_of_attempt hk ha, follow_flow]

lemma endsCycle_eq_false {a : Action} (h : a.kind ≠ .plain) (r : LineReader) : a.endsCycle r = false := by
  cases a <;> simp_all [Action.kind, Action.endsCycle]

section

variable {m m' : Machine} {s s' : Course} {i : Nat}

lemma tryIn_ok {c : Command} (h : c.tryIn i s m = .ok s' m') :
    s'.tried = s.tried + 1 ∧ (c.action.kind ≠ .plain → s'.ended = false) := by
  obtain ⟨e, m₁, -, h⟩ := Outcome.bind_eq_ok.1 h
  obtain ⟨⟨selected, flow⟩, m₂, -, h⟩ := Outcome.bind_eq_ok.1 h
  obtain ⟨_, m₃, -, h⟩ := Outcome.bind_eq_ok.1 h
  cases h
  exact ⟨rfl, fun hc => by simp [endsCycle_eq_false hc]⟩

lemma tried_run {t : BlockTree} (h : t.run i s m = .ok s' m') : s'.tried ≤ s.tried + t.size := by
  induction t generalizing i s s' m m' with
  | nil =>
    cases h
    exact Nat.le_refl _
  | command c _ rest ih =>
    obtain ⟨s₁, m₁, hc, h⟩ := Outcome.bind_eq_ok.1 h
    have ht := (tryIn_ok hc).1
    rw [BlockTree.size]
    split at h
    · cases h
      omega
    · have := ih h
      omega
  | block opening _ body closing _ rest ihb ihr =>
    obtain ⟨s₁, m₁, ho, h⟩ := Outcome.bind_eq_ok.1 h
    have ht := (tryIn_ok ho).1
    rw [BlockTree.size]
    split at h
    · obtain ⟨s₂, m₂, hb, h⟩ := Outcome.bind_eq_ok.1 h
      have htb := ihb hb
      split at h
      · cases h
        omega
      · obtain ⟨s₃, m₃, hc, h⟩ := Outcome.bind_eq_ok.1 h
        have htc := (tryIn_ok hc).1
        have htr := ihr h
        omega
    · have htr := ihr h
      omega

end

lemma Script.following_eq_place {size i j : Nat} (h : i + 1 = j) : following size i = place size j := by
  subst h
  rfl

lemma goOn_place {p : Program} {i : Nat} {c : Command} (hc : p[i]? = some c) (budget : Nat) (s : Course) :
    goOn p budget s (Script.place p.length i) = runFrom p (budget - s.tried) i := by
  rw [Script.place, if_pos (List.getElem?_eq_some_iff.1 hc).1]
  rfl

section

variable {p : Program} (hk : ∀ c ∈ p, c.action.kind ≠ .branching) {budget : Nat}
include hk

lemma goOn_tryIn {i : Nat} {c : Command} (hc : p[i]? = some c) {s : Course}
    (hb : s.tried + p.length ≤ budget + i) (m : Machine) :
    goOn p budget s (Script.place p.length i) m = (do
      let s' ← c.tryIn i s
      goOn p budget s' (if s'.ended then none
        else if s'.selected ∧ c.action = Action.openBlock then c.branch else c.next)) m := by
  have hi := (List.getElem?_eq_some_iff.1 hc).1
  rw [goOn_place hc, runFrom_tryIn hc (hk c (List.mem_of_getElem? hc)) (by omega)]

-- The links are followed from a tree's first command on exactly as the tree is run.
lemma goOn_run {t : BlockTree} {i : Nat} (hl : t.Linked p i) (s : Course) (hs : s.ended = false)
    (hb : s.tried + p.length ≤ budget + i) (m : Machine) :
    goOn p budget s (Script.place p.length i) m = (do
      let s' ← t.run i s
      goOn p budget s' (if s'.ended then none else Script.place p.length (i + t.size))) m := by
  induction t generalizing i s m with
  | nil => simp [BlockTree.run, BlockTree.size, hs]
  | command c hc rest ih =>
    obtain ⟨hp, hn, hr⟩ := hl
    rw [goOn_tryIn hk hp hb, BlockTree.run, BlockTree.size]
    simp only [bind_assoc]
    apply Outcome.bind_congr
    intro s₁ m₁ h₁
    obtain ⟨ht, -⟩ := tryIn_ok h₁
    cases he : s₁.ended with
    | true => simp [he]
    | false =>
      have hg := ih hr s₁ he (by omega) m₁
      rw [Script.following_eq_place rfl] at hn
      rw [show i + (rest.size + 1) = i + 1 + rest.size by omega]
      simpa [hc.1, hn, he] using hg
  | block opening ho body closing hc rest ihb ihr =>
    obtain ⟨⟨hpo, hbo, hno⟩, hlb, ⟨hpc, hnc⟩, hlr⟩ := hl
    rw [goOn_tryIn hk hpo hb, BlockTree.run, BlockTree.size]
    simp only [bind_assoc]
    apply Outcome.bind_congr
    intro s₁ m₁ h₁
    obtain ⟨ht, he⟩ := tryIn_ok h₁
    have he := he (by simp [ho, Action.kind])
    have hrest (s' : Course) (he' : s'.ended = false) (ht' : s'.tried ≤ s.tried + body.size + 2) :=
      ihr hlr s' he' (by omega)
    rw [show i + (body.size + rest.size + 2) = i + 2 + body.size + rest.size by omega]
    rw [Script.following_eq_place (show _ = i + 2 + body.size by omega)] at hno hnc
    cases hsel : s₁.selected with
    | false => simpa [hsel, he, hno] using hrest s₁ he (by omega) m₁
    | true =>
      have hlt : i + 1 + body.size < p.length := (List.getElem?_eq_some_iff.1 hpc).1
      have hi : some (i + 1) = Script.place p.length (i + 1) := by rw [Script.place, if_pos (by omega)]
      simp only [he, ho, hbo, hi, and_self, if_true, if_false, Bool.false_eq_true, bind_assoc]
      rw [ihb hlb s₁ he (by omega)]
      apply Outcome.bind_congr
      intro s₂ m₂ h₂
      have ht₂ := tried_run h₂
      cases he₂ : s₂.ended with
      | true => simp [he₂]
      | false =>
        simp only [if_false, Bool.false_eq_true, bind_assoc]
        rw [goOn_tryIn hk hpc (by omega)]
        apply Outcome.bind_congr
        intro s₃ m₃ h₃
        obtain ⟨ht₃, he₃⟩ := tryIn_ok h₃
        have he₃ := he₃ (by simp [hc, Action.kind])
        simpa [he₃, hc, hnc] using hrest s₃ he₃ (by omega) m₃

end

/-- A cycle of a script whose blocks are closed and that does not branch runs the tree of its blocks. -/
theorem linked_cycle_runs_blocks {lines : List Text} {n n' : Nat} {p : Program}
    (h : Script.program lines n = .ok p n') (hb : p.balanced = true) (hk : .branching ∉ p.kinds)
    (mode : RegexpMode) :
    ∃ t : BlockTree, t.commands = (p.prepare mode).value ∧
      ∀ (budget : Nat) (m : Machine),
        runFrom t.commands (t.size + budget) 0 m = (do
          let s ← t.run 0 .start
          if ← s.finish then runFrom t.commands (t.size + budget - s.tried) 0) m := by
  obtain ⟨t, ht, hpos, hl, hkinds⟩ := exists_linked_tree h hb mode
  refine ⟨t, ht, fun budget m => ?_⟩
  have hstraight : ∀ c ∈ t.commands, c.action.kind ≠ .branching := by
    intro c hc he
    rw [← hkinds, Program.kinds] at hk
    exact hk (List.mem_map.2 ⟨c, hc, he⟩)
  have hlen : t.commands.length = t.size := t.length_commands
  have hg := goOn_run hstraight hl .start rfl (show 0 + t.commands.length ≤ t.size + budget + 0 by omega) m
  rw [Script.place, if_pos (by omega), hlen] at hg
  have hend : Script.place t.size (0 + t.size) = none := by simp [Script.place]
  simp only [hend, ite_self] at hg
  exact hg

-- `1,/b*/{`, `$!{`, `d`, `}`, `{}`, `n;p}` and `q`
def sampleScript : List Text :=
  [['1', ',', '/', 'b', '*', '/', '{'], ['$', '!', '{'], ['d'], ['}'], ['{', '}'], ['n', ';', 'p', '}'], ['q']]

lemma kinds_sampleScript : ∃ p n', Script.program sampleScript 1 = .ok p n' ∧ Program.kinds p =
    [.opening, .opening, .plain, .closing, .opening, .closing, .plain, .plain, .closing, .plain] := by
  have hk : (Outcome.result? (Script.program sampleScript 1)).map Program.kinds =
      some [.opening, .opening, .plain, .closing, .opening, .closing, .plain, .plain, .closing, .plain] := by
    decide +kernel
  obtain ⟨p, hp, hk⟩ := Option.map_eq_some_iff.1 hk
  obtain ⟨n', hp⟩ := Outcome.of_result? hp
  exact ⟨p, n', hp, hk⟩

theorem linked_cycle_runs_sampleScript :
    ∃ p n', Script.program sampleScript 1 = .ok p n' ∧ p.balanced = true ∧ .branching ∉ p.kinds ∧
      ∃ t : BlockTree, t.commands = (p.prepare ⟨false, false⟩).value ∧
        ∀ (budget : Nat) (m : Machine),
          runFrom t.commands (t.size + budget) 0 m = (do
            let s ← t.run 0 .start
            if ← s.finish then runFrom t.commands (t.size + budget - s.tried) 0) m := by
  obtain ⟨p, n', hp, hk⟩ := kinds_sampleScript
  have hb : p.balanced = true := by
    rw [Program.balanced, hk]
    decide
  have hn : .branching ∉ p.kinds := by
    rw [hk]
    decide
  exact ⟨p, n', hp, hb, hn, linked_cycle_runs_blocks hp hb hn ⟨false, false⟩⟩

end StreamEditor
