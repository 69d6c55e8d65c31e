import Mathlib.Data.List.Induction
import StreamEditor.Proofs.Script.Links

/-! Scripts that only jump ahead. Blocks end below their start, and a branch leads to the last label of its
name, so if every branch has its label below it all links of the script lead down. -/

namespace StreamEditor

def Program.Forward (p : Program) : Prop :=
  ∀ (i : Nat) (c : Command), p[i]? = some c → ∀ j, c.next = some j ∨ c.branch = some j → i < j ∧ j < p.length

def Program.LabelsAhead (p : Program) : Prop :=
  ∀ (i : Nat) (c : Command) (name : Text), p[i]? = some c → c.action = .branch name ∨ c.action = .test name →
    name ≠ [] → ∃ j d, i < j ∧ p[j]? = some d ∧ d.action = .label name

namespace Script

lemma labelIndex?_concat (cs : List Command) (c : Command) (name : Text) :
    labelIndex? (cs ++ [c]) name = if c.action = .label name then some cs.length else labelIndex? cs name := by
  rw [labelIndex?, List.zipIdx_append, List.filterMap_append]
  split <;> rename_i h <;> simp [h, labelIndex?]

lemma of_labelIndex? {cs : List Command} {name : Text} {i : Nat} (h : labelIndex? cs name = some i) :
    i < cs.length ∧ ∀ j d, cs[j]? = some d → d.action = .label name → j ≤ i := by
  induction cs using List.reverseRecOn with
  | nil => cases h
  | append_singleton cs c ih =>
    have hlen : (cs ++ [c]).length = cs.length + 1 := by rw [List.length_append, List.length_singleton]
    rw [labelIndex?_concat] at h
    split at h <;> rename_i hc
    · obtain rfl : cs.length = i := Option.some.inj h
      refine ⟨by omega, fun j d hj _ => ?_⟩
      have := (List.getElem?_eq_some_iff.1 hj).1
      omega
    · obtain ⟨hi, hmax⟩ := ih h
      refine ⟨by omega, fun j d hj hd => ?_⟩
      rcases Nat.lt_or_ge j cs.length with hlt | hge
      · rw [List.getElem?_append_left hlt] at hj
        exact hmax j d hj hd
      · have hlt := (List.getElem?_eq_some_iff.1 hj).1
        obtain rfl : j = cs.length := by omega
        rw [List.getElem?_concat_length] at hj
        cases hj
        exact absurd hd hc

lemma of_blocks {stack : List Nat} {i : Nat} {cs : List Command} {ends : List (Nat × Nat)}
    (h : blocks stack i cs = .ok ends) (hs : ∀ start ∈ stack, start < i) :
    ∀ e ∈ ends, e.1 < e.2 ∧ e.2 < i + cs.length := by
  induction cs generalizing stack i ends with
  | nil =>
    cases h
    simp
  | cons c cs ih =>
    have hlen : i + (c :: cs).length = i + 1 + cs.length := by rw [List.length_cons]; omega
    rw [hlen]
    rcases blocks_cons_eq_ok h with ⟨-, hr⟩ | ⟨start, stack', more, -, rfl, rfl, hr⟩ | ⟨-, hr⟩
    · refine ih hr fun start hm => ?_
      rcases List.mem_cons.1 hm with rfl | hm
      · omega
      · have := hs start hm
        omega
    · obtain ⟨hstart, hs⟩ := List.forall_mem_cons.1 hs
      refine List.forall_mem_cons.2 ⟨⟨hstart, by omega⟩, ih hr fun s h => ?_⟩
      have := hs s h
      omega
    · refine ih hr fun start hm => ?_
      have := hs start hm
      omega

section

variable {cs : List Command} {c d : Command}

lemma label_of_resolve {name : Text} (h : resolve cs c = .ok d) (hd : d.action = .label name) :
    c.action = .label name := by
  rw [resolve] at h
  split at h <;> rename_i ha
  case h_1 | h_2 =>
    obtain ⟨_, -, h⟩ := bind_eq_ok.1 h
    cases h
    cases hd
  case h_6 =>
    cases h
    exact hd
  all_goals
    cases h
    cases hd

lemma of_labelBranch {name : Text} {j : Nat} (h : labelBranch cs name = .ok (some j)) :
    name ≠ [] ∧ labelIndex? cs name = some j := by
  rw [labelBranch] at h
  split at h
  · cases h
  · rename_i hne
    cases hl : labelIndex? cs name with
    | none => simp [hl] at h
    | some i =>
      rw [hl] at h
      cases h
      exact ⟨by simpa using hne, rfl⟩

lemma branch_of_resolve {j : Nat} (h : resolve cs c = .ok d) (hc : c.branch = none) (hd : d.branch = some j) :
    ∃ name, (d.action = .branch name ∨ d.action = .test name) ∧ name ≠ [] ∧ labelIndex? cs name = some j := by
  rw [resolve] at h
  split at h <;> rename_i ha
  case h_1 name =>
    obtain ⟨branch, hb, h⟩ := bind_eq_ok.1 h
    cases h
    cases hd
    exact ⟨_, .inl rfl, of_labelBranch hb⟩
  case h_2 name =>
    obtain ⟨branch, hb, h⟩ := bind_eq_ok.1 h
    cases h
    cases hd
    exact ⟨_, .inr rfl, of_labelBranch hb⟩
  all_goals
    cases h
    cases hc.symm.trans hd

end

section

variable {n n' : Nat} {cs : List Command}

lemma branch_of_command {line : Text} {i : Nat} {c : Command} (h : command line n = .ok (i, some c) n') :
    c.branch = none := by
  obtain ⟨⟨i₁, first, second, negated⟩, n₁, -, h⟩ := Outcome.bind_eq_ok.1 h
  dsimp only at h
  rcases hf : function line i₁ with ⟨i₂, _ | f⟩ <;> simp only [hf] at h
  · split at h <;> cases h
  · split at h
    · split at h <;> cases h
    · split at h
      · cases h
      · split at h
        · cases h
        · obtain ⟨number, n₂, -, h⟩ := Outcome.bind_eq_ok.1 h
          obtain ⟨_, n₃, -, h⟩ := Outcome.bind_eq_ok.1 h
          obtain ⟨⟨i₃, a⟩, n₄, -, h⟩ := Outcome.bind_eq_ok.1 h
          cases h
          rfl

lemma branch_of_lineCommands {line : Text} (h : lineCommands line n = .ok cs n') : ∀ c ∈ cs, c.branch = none := by
  fun_induction lineCommands line generalizing n n' cs with
  | case1 =>
    cases h
    simp
  | case2 ch rest ih =>
    obtain ⟨⟨i, first⟩, n₁, hf, h⟩ := Outcome.bind_eq_ok.1 h
    obtain ⟨more, n₂, hm, h⟩ := Outcome.bind_eq_ok.1 h
    cases h
    intro c hc
    rcases List.mem_append.1 hc with hc | hc
    · rw [Option.mem_toList] at hc
      cases hc
      exact branch_of_command hf
    · exact ih i hm c hc

lemma branch_of_commands {lines : List Text} (h : commands lines n = .ok cs n') : ∀ c ∈ cs, c.branch = none := by
  induction lines generalizing n cs with
  | nil =>
    cases h
    simp
  | cons line lines ih =>
    obtain ⟨first, n₁, hf, h⟩ := Outcome.bind_eq_ok.1 h
    obtain ⟨more, n₂, hm, h⟩ := Outcome.bind_eq_ok.1 h
    cases h
    intro c hc
    rcases List.mem_append.1 hc with hc | hc
    · exact branch_of_lineCommands hf c hc
    · exact ih hm c hc

end

end Script

-- Every link leads down, but for a branch to a label, which leads to the last one of its name.
lemma Program.links_of_program {lines : List Text} {n n' : Nat} {p : Program}
    (h : Script.program lines n = .ok p n') {i j : Nat} {c : Command} (hi : p[i]? = some c)
    (hj : c.next = some j ∨ c.branch = some j) :
    j < p.length ∧ (i < j ∨ ∃ name, (c.action = .branch name ∨ c.action = .test name) ∧ name ≠ [] ∧
      ∀ (k : Nat) (d : Command), p[k]? = some d → d.action = .label name → k ≤ j) := by
  obtain ⟨cs, n₁, hcs, hl⟩ := Script.link_of_program h
  obtain ⟨-, hk, ends, hends, hlink⟩ := Script.of_link hl
  have hlen : p.length = cs.length := by simpa [Program.kinds] using congrArg List.length hk
  have hfollowing {stop : Nat} (hs : Script.following p.length stop = some j) : stop < j ∧ j < p.length := by
    rw [Script.following] at hs
    split at hs
    · cases hs
      omega
    · cases hs
  obtain ⟨c₀, d, hc₀, hd, rfl⟩ := hlink i c hi
  have hbranch := Script.branch_of_commands hcs c₀ (List.mem_of_getElem? hc₀)
  cases hs : ends.lookup i with
  | some stop =>
    obtain ⟨l₁, l₂, rfl, -⟩ := List.lookup_eq_some_iff.1 hs
    obtain ⟨hstop, hsize⟩ := Script.of_blocks hends (by simp) (i, stop) (by simp)
    simp only [Script.linkAt, hs] at hj
    rcases hj with hj | hj
    · have := hfollowing hj
      exact ⟨this.2, .inl (by omega)⟩
    · cases hj
      exact ⟨by omega, .inl (by omega)⟩
  | none =>
    have hact := Script.linkAt_action p.length ends d i
    rcases hj with hj | hj
    · simp only [Script.linkAt, hs] at hj
      have := hfollowing hj
      exact ⟨this.2, .inl this.1⟩
    · simp only [Script.linkAt, hs] at hj
      obtain ⟨name, hname, hne, hindex⟩ := Script.branch_of_resolve hd hbranch hj
      obtain ⟨hj, hmax⟩ := Script.of_labelIndex? hindex
      refine ⟨by omega, .inr ⟨name, by rwa [hact], hne, fun k e hk he => ?_⟩⟩
      obtain ⟨e₀, e₁, he₀, he₁, rfl⟩ := hlink k e hk
      rw [Script.linkAt_action] at he
      exact hmax k e₀ he₀ (Script.label_of_resolve he₁ he)

lemma Program.forward_of_program {lines : List Text} {n n' : Nat} {p : Program}
    (h : Script.program lines n = .ok p n') (ha : p.LabelsAhead) : p.Forward := by
  intro i c hi j hj
  obtain ⟨hlen, hlt | ⟨name, hname, hne, hmax⟩⟩ := links_of_program h hi hj
  · exact ⟨hlt, hlen⟩
  · obtain ⟨k, d, hik, hk, hd⟩ := ha i c name hi hname hne
    have := hmax k d hk hd
    exact ⟨by omega, hlen⟩

structure Program.Closed (p : Program) : Prop where
  length_pos : 0 < p.length
  links : ∀ c ∈ p, ∀ j, c.next = some j ∨ c.branch = some j → j < p.length

lemma Program.closed_prepare {lines : List Text} {n n' : Nat} {p : Program}
    (h : Script.program lines n = .ok p n') (mode : RegexpMode) : (p.prepare mode).value.Closed := by
  obtain ⟨cs, -, -, hl⟩ := Script.link_of_program h
  refine ⟨?_, fun c hc j hj => ?_⟩
  · rw [length_prepare]
    exact List.length_pos_iff.2 (Script.of_link hl).1
  · obtain ⟨i, hi⟩ := List.getElem?_of_mem hc
    obtain ⟨d, hd, he⟩ := getElem?_of_map_eq (outline_prepare mode p) hi
    simp only [Command.outline, Prod.mk.injEq] at he
    rw [length_prepare]
    exact (links_of_program h hd (by rwa [he.2.1, he.2.2])).1

lemma Program.Forward.prepare {p : Program} (h : p.Forward) (mode : RegexpMode) : (p.prepare mode).value.Forward := by
  intro i c hi j hj
  obtain ⟨d, hd, he⟩ := getElem?_of_map_eq (outline_prepare mode p) hi
  simp only [Command.outline, Prod.mk.injEq] at he
  rw [length_prepare]
  exact h i d hd j (by rwa [he.2.1, he.2.2])

lemma Action.letter_eq_deleteFirst {a : Action} : a.letter = 'D' ↔ a = .deleteFirst := by
  cases a <;> simp [letter]

lemma Program.deleteFirst_prepare {p : Program} (h : ∀ c ∈ p, c.action ≠ .deleteFirst) (mode : RegexpMode) :
    ∀ c ∈ (p.prepare mode).value, c.action ≠ .deleteFirst := by
  intro c hc ha
  have hm : 'D' ∈ (p.prepare mode).value.map (·.action.letter) :=
    List.mem_map.2 ⟨c, hc, Action.letter_eq_deleteFirst.2 ha⟩
  rw [letter_prepare] at hm
  obtain ⟨d, hd, he⟩ := List.mem_map.1 hm
  exact h d hd (Action.letter_eq_deleteFirst.1 he)

end StreamEditor
