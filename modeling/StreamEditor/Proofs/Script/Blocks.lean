import StreamEditor.Proofs.Outcome
import StreamEditor.Script.Link
import StreamEditor.Script.Prepare

namespace StreamEditor

inductive Action.Kind where
  | opening
  | closing
  | branching
  | plain
  deriving DecidableEq, Repr

def Action.kind : Action → Kind
  | .openBlock => .opening
  | .closeBlock => .closing
  | .branch _ | .test _ => .branching
  | _ => .plain

lemma Action.kind_eq_opening {a : Action} : a.kind = .opening ↔ a = .openBlock := by
  cases a <;> simp [kind]

lemma Action.kind_eq_closing {a : Action} : a.kind = .closing ↔ a = .closeBlock := by
  cases a <;> simp [kind]

lemma Action.kind_ne_of_ne {a : Action} (h : a ≠ .openBlock ∧ a ≠ .closeBlock) :
    a.kind ≠ .opening ∧ a.kind ≠ .closing := by
  simpa only [ne_eq, kind_eq_opening, kind_eq_closing] using h

lemma Action.block_cases (a : Action) :
    a = .openBlock ∨ a = .closeBlock ∨ a ≠ .openBlock ∧ a ≠ .closeBlock := by
  by_cases ho : a = .openBlock
  · exact .inl ho
  · by_cases hc : a = .closeBlock
    · exact .inr (.inl hc)
    · exact .inr (.inr ⟨ho, hc⟩)

def Program.kinds (p : Program) : List Action.Kind := p.map (·.action.kind)

lemma Program.kinds_cons (c : Command) (p : Program) : kinds (c :: p) = c.action.kind :: kinds p := rfl

def Program.balanced (p : Program) : Bool := p.kinds.count .opening = p.kinds.count .closing

inductive BlockTree where
  | nil
  | command (c : Command) (plain : c.action ≠ .openBlock ∧ c.action ≠ .closeBlock) (rest : BlockTree)
  | block (opening : Command) (opens : opening.action = .openBlock) (body : BlockTree)
      (closing : Command) (closes : closing.action = .closeBlock) (rest : BlockTree)

namespace BlockTree

def commands : BlockTree → List Command
  | nil => []
  | command c _ rest => c :: rest.commands
  | block opening _ body closing _ rest => opening :: (body.commands ++ closing :: rest.commands)

def size : BlockTree → Nat
  | nil => 0
  | command _ _ rest => rest.size + 1
  | block _ _ body _ _ rest => body.size + rest.size + 2

def spans (i : Nat) : BlockTree → List (Nat × Nat)
  | nil => []
  | command _ _ rest => rest.spans (i + 1)
  | block _ _ body _ _ rest =>
    body.spans (i + 1) ++ (i, i + 1 + body.size) :: rest.spans (i + 2 + body.size)

lemma length_commands (t : BlockTree) : t.commands.length = t.size := by
  induction t with
  | nil => rfl
  | command c _ rest ih => simp [commands, size, ih]
  | block opening _ body closing _ rest ihb ihr =>
    simp only [commands, size, List.length_cons, List.length_append, ihb, ihr]
    omega

lemma lookup_spans_eq_none {t : BlockTree} {i j : Nat} (h : j < i ∨ i + t.size ≤ j) :
    (t.spans i).lookup j = none := by
  induction t generalizing i with
  | nil => rfl
  | command c _ rest ih =>
    rw [size] at h
    exact ih (by omega)
  | block opening _ body closing _ rest ihb ihr =>
    rw [size] at h
    have hj : (j == i) = false := by simp; omega
    rw [spans, List.lookup_append, ihb (by omega), List.lookup_cons, hj]
    exact ihr (by omega)

end BlockTree

namespace Script

lemma blocks_opening {c : Command} (hc : c.action = .openBlock) (stack : List Nat) (i : Nat)
    (cs : List Command) : blocks stack i (c :: cs) = blocks (i :: stack) (i + 1) cs := by
  simp [blocks, hc]

lemma blocks_closing {c : Command} (hc : c.action = .closeBlock) (start : Nat) (stack : List Nat) (i : Nat)
    (cs : List Command) :
    blocks (start :: stack) i (c :: cs) = (blocks stack (i + 1) cs).map ((start, i) :: ·) := by
  simp [blocks, hc]

lemma blocks_plain {c : Command} (hc : c.action ≠ .openBlock ∧ c.action ≠ .closeBlock) (stack : List Nat)
    (i : Nat) (cs : List Command) : blocks stack i (c :: cs) = blocks stack (i + 1) cs := by
  rw [blocks.eq_def]
  dsimp only
  split <;> rename_i h
  · exact absurd h hc.1
  · exact absurd h hc.2
  · exact absurd h hc.2
  · rfl

lemma blocks_cons_eq_ok {c : Command} {cs : List Command} {stack : List Nat} {i : Nat} {ends : List (Nat × Nat)}
    (h : blocks stack i (c :: cs) = .ok ends) :
    (c.action = .openBlock ∧ blocks (i :: stack) (i + 1) cs = .ok ends) ∨
    (∃ start stack' ends', c.action = .closeBlock ∧ stack = start :: stack' ∧ ends = (start, i) :: ends' ∧
      blocks stack' (i + 1) cs = .ok ends') ∨
    ((c.action ≠ .openBlock ∧ c.action ≠ .closeBlock) ∧ blocks stack (i + 1) cs = .ok ends) := by
  rcases c.action.block_cases with hc | hc | hc
  · rw [blocks_opening hc] at h
    exact .inl ⟨hc, h⟩
  · cases stack with
    | nil => simp [blocks, hc] at h
    | cons start stack =>
      rw [blocks_closing hc] at h
      obtain ⟨ends', hr, rfl⟩ := map_eq_ok.1 h
      exact .inr (.inl ⟨start, stack, ends', hc, rfl, rfl, hr⟩)
  · rw [blocks_plain hc] at h
    exact .inr (.inr ⟨hc, h⟩)

lemma map_append_nil {ε α : Type} (r : Except ε (List α)) : r.map ([] ++ ·) = r := by
  cases r <;> rfl

lemma blocks_commands (t : BlockTree) (stack : List Nat) (i : Nat) (cs : List Command) :
    blocks stack i (t.commands ++ cs) = (blocks stack (i + t.size) cs).map (t.spans i ++ ·) := by
  induction t generalizing stack i cs with
  | nil => exact (map_append_nil _).symm
  | command c hc rest ih =>
    rw [BlockTree.commands, List.cons_append, blocks_plain hc, ih, BlockTree.size, BlockTree.spans,
      Nat.add_right_comm, ← Nat.add_assoc]
  | block opening ho body closing hc rest ihb ihr =>
    rw [BlockTree.commands, List.cons_append, List.append_assoc, blocks_opening ho, ihb, List.cons_append,
      blocks_closing hc, ihr, BlockTree.size, BlockTree.spans]
    have hi : i + 1 + body.size + 1 = i + 2 + body.size := by omega
    have hn : i + 2 + body.size + rest.size = i + (body.size + rest.size + 2) := by omega
    rw [hi, hn]
    cases blocks stack (i + (body.size + rest.size + 2)) cs <;> simp [Except.map]

lemma blocks_congr {cs ds : List Command} (h : Program.kinds cs = Program.kinds ds) (stack : List Nat)
    (i : Nat) : blocks stack i cs = blocks stack i ds := by
  induction cs generalizing ds stack i with
  | nil =>
    obtain rfl : ds = [] := by simpa [Program.kinds] using h.symm
    rfl
  | cons c cs ih =>
    obtain ⟨d, ds, rfl⟩ : ∃ d ds', ds = d :: ds' := by
      cases ds with
      | nil => simp [Program.kinds] at h
      | cons d ds => exact ⟨d, ds, rfl⟩
    obtain ⟨hk, ht⟩ : c.action.kind = d.action.kind ∧ Program.kinds cs = Program.kinds ds := by
      simpa [Program.kinds] using h
    rcases c.action.block_cases with hc | hc | hc
    · have hd : d.action = .openBlock := Action.kind_eq_opening.1 (hk ▸ Action.kind_eq_opening.2 hc)
      rw [blocks_opening hc, blocks_opening hd, ih ht]
    · have hd : d.action = .closeBlock := Action.kind_eq_closing.1 (hk ▸ Action.kind_eq_closing.2 hc)
      cases stack with
      | nil => simp [blocks, hc, hd]
      | cons start stack => rw [blocks_closing hc, blocks_closing hd, ih ht]
    · have hd : d.action ≠ .openBlock ∧ d.action ≠ .closeBlock := by
        simpa only [ne_eq, ← Action.kind_eq_opening, ← Action.kind_eq_closing, hk] using hc
      rw [blocks_plain hc, blocks_plain hd, ih ht]

def Closes : Nat → List Command → Prop
  | 0, cs => ∃ t : BlockTree, t.commands = cs
  | n + 1, cs => ∃ (t : BlockTree) (c : Command) (rest : List Command),
      c.action = .closeBlock ∧ cs = t.commands ++ c :: rest ∧ Closes n rest

lemma Closes.extend (f : BlockTree → BlockTree) (front : List Command)
    (hf : ∀ t, (f t).commands = front ++ t.commands) {n : Nat} {cs : List Command} (h : Closes n cs) :
    Closes n (front ++ cs) := by
  cases n with
  | zero =>
    obtain ⟨t, rfl⟩ := h
    exact ⟨f t, hf t⟩
  | succ n =>
    obtain ⟨t, c, rest, hc, rfl, hr⟩ := h
    exact ⟨f t, c, rest, hc, by rw [hf, List.append_assoc], hr⟩

lemma closes_of_blocks {cs : List Command} {stack : List Nat} {i : Nat} {ends : List (Nat × Nat)}
    (h : blocks stack i cs = .ok ends)
    (hb : stack.length + (Program.kinds cs).count .opening = (Program.kinds cs).count .closing) :
    Closes stack.length cs := by
  induction cs generalizing stack i ends with
  | nil =>
    have hs : stack = [] := by simpa [Program.kinds] using hb
    rw [hs]
    exact ⟨.nil, rfl⟩
  | cons c cs ih =>
    rcases blocks_cons_eq_ok h with ⟨hc, hr⟩ | ⟨start, stack', ends', hc, rfl, rfl, hr⟩ | ⟨hc, hr⟩
    · have hcloses : Closes (stack.length + 1) cs := by
        refine ih hr ?_
        simp [Program.kinds_cons, Action.kind_eq_opening.2 hc] at hb ⊢
        omega
      obtain ⟨t, d, rest, hd, rfl, hn⟩ := hcloses
      simpa using hn.extend (.block c hc t d hd) (c :: (t.commands ++ [d])) (by simp [BlockTree.commands])
    · refine ⟨.nil, c, cs, hc, rfl, ih hr ?_⟩
      simp [Program.kinds_cons, Action.kind_eq_closing.2 hc] at hb ⊢
      omega
    · have hk := Action.kind_ne_of_ne hc
      refine (ih hr ?_).extend (.command c hc) [c] fun _ => rfl
      simpa [Program.kinds_cons, hk.1, hk.2] using hb

lemma exists_tree {p : Program} {ends : List (Nat × Nat)} (h : blocks [] 0 p = .ok ends)
    (hb : p.balanced = true) : ∃ t : BlockTree, t.commands = p :=
  closes_of_blocks h (by simpa [Program.balanced] using hb)

end Script

end StreamEditor
