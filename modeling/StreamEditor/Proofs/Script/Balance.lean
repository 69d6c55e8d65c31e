import Mathlib.Data.List.Nodup
import StreamEditor.Proofs.Script.Forward

/-! Which scripts can be linked. A block that is closed has to be open, but nothing asks that a block that is open is
closed: one that is not has no branch into it. -/

namespace StreamEditor

namespace Program

/-- With so many blocks open before the commands, none of them closes a block that is not open: no prefix closes more
than are open before it and than it opens. -/
def ClosesOpen (n : Nat) (p : Program) : Prop :=
  ∀ front : Program, front <+: p → front.kinds.count .closing ≤ n + front.kinds.count .opening

def Nested (p : Program) : Prop := p.ClosesOpen 0 ∧ p.balanced = true

def ClosedAt (p : Program) (i j : Nat) : Prop :=
  ∃ (front : Program) (opening : Command) (body : Program) (closing : Command) (rest : Program),
    p = front ++ opening :: (body ++ closing :: rest) ∧ opening.action = .openBlock ∧
      closing.action = .closeBlock ∧ body.Nested ∧ i = front.length ∧ j = front.length + 1 + body.length

def LeftOpen (p : Program) (i : Nat) : Prop :=
  (∃ c, p[i]? = some c ∧ c.action = .openBlock) ∧ ∀ j, ¬p.ClosedAt i j

/-- Every block is closed; its start leads to the command after it, and past the block to the one after its end. -/
def BlocksLinked (cs p : Program) : Prop :=
  ∀ i c, cs[i]? = some c → c.action = .openBlock → ∃ j d, cs.ClosedAt i j ∧ p[i]? = some d ∧
    d.branch = some (i + 1) ∧ d.next = Script.following cs.length j

def LabelsDefined (p : Program) : Prop :=
  ∀ c ∈ p, ∀ name, c.action = .branch name ∨ c.action = .test name →
    Text.trimRight name = [] ∨ ∃ d ∈ p, d.action = .label (Text.trimRight name)

lemma forall_prefix_cons {α : Type} {P : List α → Prop} {a : α} {l : List α} :
    (∀ front, front <+: a :: l → P front) ↔ P [] ∧ ∀ front, front <+: l → P (a :: front) := by
  constructor
  · intro h
    exact ⟨h [] List.nil_prefix, fun front hf => h _ (List.cons_prefix_cons.2 ⟨rfl, hf⟩)⟩
  · rintro ⟨hnil, hcons⟩ front hf
    rcases List.prefix_cons_iff.1 hf with rfl | ⟨front, rfl, hfront⟩
    · exact hnil
    · exact hcons front hfront

section

variable {c : Command} {p : Program} {n : Nat}

lemma closesOpen_nil (n : Nat) : ClosesOpen n [] := by
  intro front h
  rw [List.prefix_nil.1 h]
  exact Nat.zero_le _

lemma closesOpen_opening (hc : c.action = .openBlock) : ClosesOpen n (c :: p) ↔ ClosesOpen (n + 1) p := by
  rw [ClosesOpen, forall_prefix_cons, ClosesOpen]
  simp [kinds, Action.kind_eq_opening.2 hc, Nat.add_assoc, Nat.add_comm 1]

lemma closesOpen_closing (hc : c.action = .closeBlock) :
    ClosesOpen n (c :: p) ↔ ∃ m, n = m + 1 ∧ ClosesOpen m p := by
  rw [ClosesOpen, forall_prefix_cons]
  simp only [kinds_cons, Action.kind_eq_closing.2 hc]
  constructor
  · rintro ⟨-, h⟩
    have hn : 1 ≤ n := by simpa [kinds] using h [] List.nil_prefix
    obtain ⟨m, rfl⟩ := Nat.exists_eq_add_of_le' hn
    refine ⟨m, rfl, fun front hf => ?_⟩
    have := h front hf
    simp at this
    omega
  · rintro ⟨m, rfl, h⟩
    refine ⟨Nat.zero_le _, fun front hf => ?_⟩
    have := h front hf
    simp
    omega

lemma closesOpen_plain (hc : c.action ≠ .openBlock ∧ c.action ≠ .closeBlock) :
    ClosesOpen n (c :: p) ↔ ClosesOpen n p := by
  have hk := Action.kind_ne_of_ne hc
  rw [ClosesOpen, forall_prefix_cons, ClosesOpen]
  simp [kinds, hk.1, hk.2]

lemma ClosedAt.cons {i j : Nat} (h : p.ClosedAt i j) (c : Command) : ClosedAt (c :: p) (i + 1) (j + 1) := by
  obtain ⟨front, opening, body, closing, rest, rfl, ho, hc, hb, rfl, rfl⟩ := h
  refine ⟨c :: front, opening, body, closing, rest, rfl, ho, hc, hb, rfl, ?_⟩
  rw [List.length_cons]
  omega

lemma ClosedAt.opening {i j : Nat} (h : p.ClosedAt i j) : ∃ c, p[i]? = some c ∧ c.action = .openBlock := by
  obtain ⟨front, opening, body, closing, rest, rfl, ho, -, -, rfl, -⟩ := h
  exact ⟨opening, by simp, ho⟩

end

end Program

lemma BlockTree.balanced_commands (t : BlockTree) : Program.balanced t.commands = true := by
  have hcount : (Program.kinds t.commands).count .opening = (Program.kinds t.commands).count .closing := by
    induction t with
    | nil => rfl
    | command c hc rest ih =>
      have hk := Action.kind_ne_of_ne hc
      simpa [commands, Program.kinds_cons, hk.1, hk.2] using ih
    | block opening ho body closing hc rest ihb ihr =>
      simp only [Program.kinds] at ihb ihr
      simp [commands, Program.kinds, Action.kind_eq_opening.2 ho, Action.kind_eq_closing.2 hc, ihb, ihr]
      omega
  simpa [Program.balanced] using hcount

namespace Script

section

variable {c : Command} {cs : List Command} {stack : List Nat} {i : Nat} {ends : List (Nat × Nat)}

lemma exists_blocks_iff : (∃ ends, blocks stack i cs = .ok ends) ↔ Program.ClosesOpen stack.length cs := by
  induction cs generalizing stack i with
  | nil => exact iff_of_true ⟨[], rfl⟩ (Program.closesOpen_nil _)
  | cons c cs ih =>
    rcases c.action.block_cases with hc | hc | hc
    · rw [blocks_opening hc, Program.closesOpen_opening hc]
      exact ih
    · rw [Program.closesOpen_closing hc]
      cases stack with
      | nil => simp [blocks, hc]
      | cons start stack =>
        have hrest : (∃ ends, blocks stack (i + 1) cs = .ok ends) ↔ Program.ClosesOpen stack.length cs := ih
        rw [blocks_closing hc]
        simp [map_eq_ok, ← hrest]
    · rw [blocks_plain hc, Program.closesOpen_plain hc]
      exact ih

end

lemma nested_iff {p : Program} : p.Nested ↔ ∃ t : BlockTree, t.commands = p := by
  constructor
  · rintro ⟨hopen, hbalanced⟩
    obtain ⟨ends, hends⟩ : ∃ ends, blocks [] 0 p = .ok ends := exists_blocks_iff.2 hopen
    exact exists_tree hends hbalanced
  · rintro ⟨t, rfl⟩
    have hblocks := blocks_commands t [] 0 []
    rw [List.append_nil] at hblocks
    exact ⟨exists_blocks_iff.1 ⟨_, hblocks⟩, t.balanced_commands⟩

section

variable {cs : List Command} {stack : List Nat} {i : Nat} {ends : List (Nat × Nat)}

lemma mem_of_closedAt {k l : Nat} (h : blocks stack i cs = .ok ends) (hc : Program.ClosedAt cs k l) :
    (i + k, i + l) ∈ ends := by
  obtain ⟨front, opening, body, closing, rest, rfl, ho, hclosing, hbody, rfl, rfl⟩ := hc
  obtain ⟨t, rfl⟩ := nested_iff.1 hbody
  rw [BlockTree.length_commands]
  induction front generalizing stack i ends with
  | nil =>
    rw [List.nil_append, blocks_opening ho, blocks_commands, blocks_closing hclosing] at h
    obtain ⟨ends', hr, rfl⟩ := map_eq_ok.1 h
    obtain ⟨ends'', -, rfl⟩ := map_eq_ok.1 hr
    simp [Nat.add_assoc]
  | cons c front ih =>
    have hstep {stack' : List Nat} {ends' : List (Nat × Nat)}
        (hr : blocks stack' (i + 1) (front ++ opening :: (t.commands ++ closing :: rest)) = .ok ends') :
        (i + (c :: front).length, i + ((c :: front).length + 1 + t.size)) ∈ ends' := by
      have hmem := ih hr
      rw [List.length_cons]
      rwa [show i + (front.length + 1) = i + 1 + front.length by omega,
        show i + (front.length + 1 + 1 + t.size) = i + 1 + (front.length + 1 + t.size) by omega]
    rcases blocks_cons_eq_ok h with ⟨-, hr⟩ | ⟨start, stack', ends', -, rfl, rfl, hr⟩ | ⟨-, hr⟩
    · exact hstep hr
    · exact List.mem_cons_of_mem _ (hstep hr)
    · exact hstep hr

-- A block is closed by the command that closes as many blocks as are open in it. One that was open before closes after
-- as many others as were opened after it.
lemma closedAt_of_mem {m j : Nat} (h : blocks stack i cs = .ok ends) (hm : (m, j) ∈ ends) :
    (∃ k, stack[k]? = some m ∧ ∃ body c rest, cs = body ++ c :: rest ∧ c.action = .closeBlock ∧ Closes k body ∧
      j = i + body.length) ∨
    ∃ k l, m = i + k ∧ j = i + l ∧ Program.ClosedAt cs k l := by
  induction cs generalizing stack i ends with
  | nil =>
    cases h
    cases hm
  | cons c cs ih =>
    have hlater (hlate : ∃ k l, m = i + 1 + k ∧ j = i + 1 + l ∧ Program.ClosedAt cs k l) :
        ∃ k l, m = i + k ∧ j = i + l ∧ Program.ClosedAt (c :: cs) k l := by
      obtain ⟨k, l, rfl, rfl, hclosed⟩ := hlate
      exact ⟨k + 1, l + 1, by omega, by omega, hclosed.cons c⟩
    rcases blocks_cons_eq_ok h with ⟨hc, hr⟩ | ⟨start, stack', ends', hc, rfl, rfl, hr⟩ | ⟨hc, hr⟩
    · rcases ih hr hm with ⟨k, hk, body, d, rest, rfl, hd, hbody, rfl⟩ | hlate
      · cases k with
        | zero =>
          cases hk
          refine .inr ⟨0, 1 + body.length, rfl, by omega, [], c, body, d, rest, rfl, hc, hd, nested_iff.2 hbody, rfl, ?_⟩
          rw [List.length_nil, Nat.zero_add]
        | succ k =>
          obtain ⟨t, e, more, he, rfl, hmore⟩ := hbody
          have hextended := hmore.extend (.block c hc t e he) (c :: (t.commands ++ [e])) (by simp [BlockTree.commands])
          refine .inl ⟨k, hk, c :: (t.commands ++ e :: more), d, rest, rfl, hd, by simpa using hextended, ?_⟩
          rw [List.length_cons]
          omega
      · exact .inr (hlater hlate)
    · rcases List.mem_cons.1 hm with heq | hm
      · cases heq
        exact .inl ⟨0, rfl, [], c, cs, rfl, hc, ⟨.nil, rfl⟩, rfl⟩
      · rcases ih hr hm with ⟨k, hk, body, d, rest, rfl, hd, hbody, rfl⟩ | hlate
        · refine .inl ⟨k + 1, hk, c :: body, d, rest, rfl, hd, ⟨.nil, c, body, hc, rfl, hbody⟩, ?_⟩
          rw [List.length_cons]
          omega
        · exact .inr (hlater hlate)
    · rcases ih hr hm with ⟨k, hk, body, d, rest, rfl, hd, hbody, rfl⟩ | hlate
      · refine .inl ⟨k, hk, c :: body, d, rest, rfl, hd, hbody.extend (.command c hc) [c] fun _ => rfl, ?_⟩
        rw [List.length_cons]
        omega
      · exact .inr (hlater hlate)

lemma nodup_keys (h : blocks stack i cs = .ok ends) (hs : stack.Nodup) (hlt : ∀ m ∈ stack, m < i) :
    (ends.map Prod.fst).Nodup ∧ ∀ m ∈ ends.map Prod.fst, m ∈ stack ∨ i ≤ m := by
  induction cs generalizing stack i ends with
  | nil =>
    cases h
    simp
  | cons c cs ih =>
    rcases blocks_cons_eq_ok h with ⟨-, hr⟩ | ⟨start, stack', ends', -, rfl, rfl, hr⟩ | ⟨-, hr⟩
    · have hi : i ∉ stack := fun hi => Nat.lt_irrefl i (hlt i hi)
      obtain ⟨hnodup, hkeys⟩ := ih hr (List.nodup_cons.2 ⟨hi, hs⟩)
        (List.forall_mem_cons.2 ⟨Nat.lt_succ_self i, fun m hm => Nat.lt_succ_of_lt (hlt m hm)⟩)
      refine ⟨hnodup, fun m hm => ?_⟩
      rcases hkeys m hm with hm | hm
      · rcases List.mem_cons.1 hm with rfl | hm
        · exact .inr (Nat.le_refl _)
        · exact .inl hm
      · exact .inr (Nat.le_of_succ_le hm)
    · obtain ⟨hstart, hs⟩ := List.nodup_cons.1 hs
      obtain ⟨hlast, hlt⟩ := List.forall_mem_cons.1 hlt
      obtain ⟨hnodup, hkeys⟩ := ih hr hs fun m hm => Nat.lt_succ_of_lt (hlt m hm)
      refine ⟨List.nodup_cons.2 ⟨fun hm => ?_, hnodup⟩, List.forall_mem_cons.2 ⟨.inl List.mem_cons_self, fun m hm => ?_⟩⟩
      · rcases hkeys start hm with hm | hm
        · exact hstart hm
        · omega
      · rcases hkeys m hm with hm | hm
        · exact .inl (List.mem_cons_of_mem _ hm)
        · exact .inr (Nat.le_of_succ_le hm)
    · obtain ⟨hnodup, hkeys⟩ := ih hr hs fun m hm => Nat.lt_succ_of_lt (hlt m hm)
      exact ⟨hnodup, fun m hm => (hkeys m hm).imp_right Nat.le_of_succ_le⟩

def StartsAt (stack : List Nat) (i : Nat) (cs : List Command) (m : Nat) : Prop :=
  m ∈ stack ∨ ∃ k c, cs[k]? = some c ∧ c.action = .openBlock ∧ m = i + k

lemma startsAt_cons {c : Command} {m : Nat} :
    StartsAt stack i (c :: cs) m ↔ (c.action = .openBlock ∧ m = i) ∨ StartsAt stack (i + 1) cs m := by
  constructor
  · rintro (hm | ⟨_ | k, d, hd, hopen, rfl⟩)
    · exact .inr (.inl hm)
    · cases hd
      exact .inl ⟨hopen, rfl⟩
    · exact .inr (.inr ⟨k, d, hd, hopen, by omega⟩)
  · rintro (⟨hopen, rfl⟩ | hm | ⟨k, d, hd, hopen, rfl⟩)
    · exact .inr ⟨0, c, rfl, hopen, rfl⟩
    · exact .inl hm
    · exact .inr ⟨k + 1, d, hd, hopen, by omega⟩

-- A command that closes a block takes one start and one key away, and both are the same.
lemma starts_closed_iff (h : blocks stack i cs = .ok ends) (hs : stack.Nodup) (hlt : ∀ m ∈ stack, m < i) :
    (∀ m, StartsAt stack i cs m → m ∈ ends.map Prod.fst) ↔
      stack.length + (Program.kinds cs).count .opening = (Program.kinds cs).count .closing := by
  induction cs generalizing stack i ends with
  | nil =>
    cases h
    cases stack with
    | nil => simp [StartsAt, Program.kinds]
    | cons start stack =>
      refine iff_of_false (fun hall => ?_) (by simp [Program.kinds])
      cases hall start (.inl List.mem_cons_self)
  | cons c cs ih =>
    rw [Program.kinds_cons]
    simp only [startsAt_cons]
    rcases blocks_cons_eq_ok h with ⟨hc, hr⟩ | ⟨start, stack', ends', hc, rfl, rfl, hr⟩ | ⟨hc, hr⟩
    · have hi : i ∉ stack := fun hi => Nat.lt_irrefl i (hlt i hi)
      have hopened := ih hr (List.nodup_cons.2 ⟨hi, hs⟩)
        (List.forall_mem_cons.2 ⟨Nat.lt_succ_self i, fun m hm => Nat.lt_succ_of_lt (hlt m hm)⟩)
      rw [Action.kind_eq_opening.2 hc, List.count_cons_self, List.count_cons_of_ne (by decide), ← Nat.add_assoc,
        Nat.add_right_comm, ← List.length_cons (a := i), ← hopened]
      simp [StartsAt, hc, or_assoc]
    · obtain ⟨hstart, hs⟩ := List.nodup_cons.1 hs
      obtain ⟨hlast, hlt⟩ := List.forall_mem_cons.1 hlt
      have hclosed := ih hr hs fun m hm => Nat.lt_succ_of_lt (hlt m hm)
      have hother : ∀ m, StartsAt stack' (i + 1) cs m → m ≠ start := by
        rintro m (hm | ⟨k, d, -, -, rfl⟩)
        · exact fun he => hstart (he ▸ hm)
        · omega
      rw [Action.kind_eq_closing.2 hc, List.count_cons_self, List.count_cons_of_ne (by decide), List.length_cons,
        Nat.add_right_comm, Nat.add_left_inj, ← hclosed]
      constructor
      · intro hall m hm
        refine (List.mem_cons.1 (hall m (.inr ?_))).resolve_left (hother m hm)
        exact hm.imp_left (List.mem_cons_of_mem _)
      · rintro hall m (⟨hopen, -⟩ | hm | hm)
        · rw [hc] at hopen
          cases hopen
        · rcases List.mem_cons.1 hm with rfl | hm
          · exact List.mem_cons_self
          · exact List.mem_cons_of_mem _ (hall m (.inl hm))
        · exact List.mem_cons_of_mem _ (hall m (.inr hm))
    · have hk := Action.kind_ne_of_ne hc
      rw [List.count_cons_of_ne hk.1, List.count_cons_of_ne hk.2, ← ih hr hs fun m hm => Nat.lt_succ_of_lt (hlt m hm)]
      simp [hc.1]

end

section

variable {p : Program} {ends : List (Nat × Nat)} (h : blocks [] 0 p = .ok ends)
include h

lemma mem_blocks_iff {i j : Nat} : (i, j) ∈ ends ↔ p.ClosedAt i j := by
  constructor
  · intro hmem
    rcases closedAt_of_mem h hmem with ⟨k, hk, -⟩ | ⟨k, l, rfl, rfl, hclosed⟩
    · cases hk
    · simpa using hclosed
  · intro hclosed
    simpa using mem_of_closedAt h hclosed

lemma lookup_blocks_iff {i j : Nat} : ends.lookup i = some j ↔ p.ClosedAt i j := by
  rw [← mem_blocks_iff h]
  constructor
  · intro hlookup
    obtain ⟨before, after, rfl, -⟩ := List.lookup_eq_some_iff.1 hlookup
    simp
  · intro hmem
    obtain ⟨before, after, rfl⟩ := List.append_of_mem hmem
    have hnodup := (nodup_keys h List.nodup_nil (by simp)).1
    rw [List.map_append, List.map_cons, List.nodup_middle, List.nodup_cons, List.mem_append, not_or] at hnodup
    refine List.lookup_eq_some_iff.2 ⟨before, after, rfl, fun e he => ?_⟩
    have hne : i ≠ e.1 := fun hi => hnodup.1.1 (List.mem_map.2 ⟨e, he, hi.symm⟩)
    simpa using hne

lemma mem_keys_iff {i : Nat} : i ∈ ends.map Prod.fst ↔ ∃ j, p.ClosedAt i j := by
  simp [← mem_blocks_iff h]

lemma closed_iff_balanced :
    (∀ i c, p[i]? = some c → c.action = .openBlock → ∃ j, p.ClosedAt i j) ↔ p.balanced = true := by
  have hclosed := starts_closed_iff h List.nodup_nil (by simp)
  rw [List.length_nil, Nat.zero_add] at hclosed
  rw [Program.balanced, decide_eq_true_iff, ← hclosed]
  constructor
  · rintro hall m (hm | ⟨k, c, hk, hc, rfl⟩)
    · cases hm
    · rw [Nat.zero_add]
      exact (mem_keys_iff h).2 (hall k c hk hc)
  · intro hall i c hi hc
    exact (mem_keys_iff h).1 (hall i (.inr ⟨i, c, hi, hc, (Nat.zero_add i).symm⟩))

end

lemma exists_mapM_iff {ε α β : Type} {f : α → Except ε β} {as : List α} :
    (∃ bs, as.mapM f = .ok bs) ↔ ∀ a ∈ as, ∃ b, f a = .ok b := by
  induction as with
  | nil => exact iff_of_true ⟨[], rfl⟩ (by simp)
  | cons a as ih =>
    rw [List.forall_mem_cons, ← ih, List.mapM_cons]
    constructor
    · rintro ⟨bs, h⟩
      obtain ⟨b, hb, h⟩ := bind_eq_ok.1 h
      obtain ⟨bs', hs, -⟩ := bind_eq_ok.1 h
      exact ⟨⟨b, hb⟩, bs', hs⟩
    · rintro ⟨⟨b, hb⟩, bs, hs⟩
      exact ⟨b :: bs, bind_eq_ok.2 ⟨b, hb, bind_eq_ok.2 ⟨bs, hs, rfl⟩⟩⟩

lemma labelIndex?_eq_none_iff {cs : List Command} {name : Text} :
    labelIndex? cs name = none ↔ ∀ d ∈ cs, d.action ≠ .label name := by
  induction cs using List.reverseRecOn with
  | nil => exact iff_of_true rfl (by simp)
  | append_singleton cs c ih =>
    rw [labelIndex?_concat, List.forall_mem_append, List.forall_mem_singleton, ← ih]
    split <;> rename_i hc <;> simp [hc]

lemma exists_labelBranch_iff {cs : List Command} {name : Text} :
    (∃ b, labelBranch cs name = .ok b) ↔ name = [] ∨ ∃ d ∈ cs, d.action = .label name := by
  rw [labelBranch]
  by_cases hname : name = []
  · simp [hname]
  · rw [if_neg (by simpa using hname), or_iff_right hname]
    cases hindex : labelIndex? cs name with
    | none => simpa using labelIndex?_eq_none_iff.1 hindex
    | some i =>
      refine iff_of_true ⟨_, rfl⟩ ?_
      by_contra hnone
      rw [labelIndex?_eq_none_iff.2 fun d hd hl => hnone ⟨d, hd, hl⟩] at hindex
      cases hindex

lemma exists_resolve_iff {cs : List Command} {c : Command} :
    (∃ d, resolve cs c = .ok d) ↔ ∀ name, c.action = .branch name ∨ c.action = .test name →
      Text.trimRight name = [] ∨ ∃ d ∈ cs, d.action = .label (Text.trimRight name) := by
  have hbranch (name : Text) (f : Option Nat → Command) :
      (∃ d, (labelBranch cs (Text.trimRight name) >>= fun b => .ok (f b)) = .ok d) ↔
        Text.trimRight name = [] ∨ ∃ d ∈ cs, d.action = .label (Text.trimRight name) := by
    rw [← exists_labelBranch_iff]
    constructor
    · rintro ⟨d, h⟩
      obtain ⟨b, hb, -⟩ := bind_eq_ok.1 h
      exact ⟨b, hb⟩
    · rintro ⟨b, hb⟩
      exact ⟨f b, bind_eq_ok.2 ⟨b, hb, rfl⟩⟩
  rw [resolve]
  cases c.action with
  | branch name | test name => simpa using hbranch name _
  | _ => simp

lemma exists_link_iff {cs : List Command} :
    (∃ p, link cs = .ok p) ↔ cs ≠ [] ∧ Program.LabelsDefined cs ∧ Program.ClosesOpen 0 cs := by
  have hlabels : (∃ ds, cs.mapM (resolve cs) = .ok ds) ↔ Program.LabelsDefined cs := by
    rw [exists_mapM_iff]
    exact forall₂_congr fun c _ => exists_resolve_iff
  have hblocks : (∃ ends, blocks [] 0 cs = .ok ends) ↔ Program.ClosesOpen 0 cs := exists_blocks_iff
  rw [← hlabels, ← hblocks, link]
  by_cases hne : cs = []
  · simp [hne]
  · rw [if_neg (by simpa using hne), and_iff_right hne]
    constructor
    · rintro ⟨p, h⟩
      obtain ⟨ds, hds, h⟩ := bind_eq_ok.1 h
      obtain ⟨ends, hends, -⟩ := bind_eq_ok.1 h
      exact ⟨⟨ds, hds⟩, ends, hends⟩
    · rintro ⟨⟨ds, hds⟩, ends, hends⟩
      exact ⟨_, bind_eq_ok.2 ⟨ds, hds, bind_eq_ok.2 ⟨ends, hends, rfl⟩⟩⟩

lemma program_eq {lines : List Text} {n n' : Nat} {cs : List Command} (h : commands lines n = .ok cs n') :
    program lines n = (Reading.lift (link cs |>.mapError Failure.whileParsing)) n' := by
  rw [program, Outcome.bind_ok h]
  cases link cs <;> rfl

lemma getElem?_of_link {cs : List Command} {p : Program} (h : link cs = .ok p) :
    ∃ ends, blocks [] 0 cs = .ok ends ∧
      ∀ i c, cs[i]? = some c → c.action = .openBlock → p[i]? = some (linkAt cs.length ends c i) := by
  obtain ⟨-, hk, ends, hends, hlink⟩ := of_link h
  have hlength : p.length = cs.length := by simpa [Program.kinds] using congrArg List.length hk
  refine ⟨ends, hends, fun i c hi hc => ?_⟩
  have hlt : i < p.length := hlength ▸ (List.getElem?_eq_some_iff.1 hi).1
  obtain ⟨c₀, d, hc₀, hd, heq⟩ := hlink i p[i] (List.getElem?_eq_getElem hlt)
  cases hi.symm.trans hc₀
  rw [resolve, hc] at hd
  cases hd
  rw [List.getElem?_eq_getElem hlt, heq, hlength]

end Script

lemma Failure.exists_whileParsing (e : Failure) : ∃ f, e.whileParsing = .fault f := by
  cases e <;> exact ⟨_, rfl⟩

/-- A script is linked if its branches have labels and no block is closed that is not open, whether or not all blocks
are closed; one that is not linked is a fault. The start of a block that is closed leads into the block and past it. One
that is left open keeps the branch it is read with, which is none, so the cycle ends there, and goes on to the next
command if it is not selected. So all blocks are linked as blocks exactly if there are as many ends as starts. -/
theorem script_with_open_blocks_loads (cs : List Command) :
    ((∃ p, Script.link cs = .ok p) ↔ cs ≠ [] ∧ Program.LabelsDefined cs ∧ Program.ClosesOpen 0 cs) ∧
    (∀ lines n n', Script.commands lines n = .ok cs n' → (∀ c ∈ cs, c.branch = none) ∧
      (∀ p, Script.link cs = .ok p → Script.program lines n = .ok p n') ∧
      ((¬∃ p, Script.link cs = .ok p) → ∃ f, Script.program lines n = .error (.fault f) n')) ∧
    ∀ p, Script.link cs = .ok p →
      (∀ i j, Program.ClosedAt cs i j → ∃ c, p[i]? = some c ∧ c.action = .openBlock ∧ c.branch = some (i + 1) ∧
        c.next = Script.following cs.length j) ∧
      (∀ i, Program.LeftOpen cs i → ∃ c d, cs[i]? = some c ∧ p[i]? = some d ∧ d.action = .openBlock ∧
        d.branch = c.branch ∧ d.next = Script.following cs.length i) ∧
      (Program.BlocksLinked cs p ↔ Program.balanced cs = true) := by
  refine ⟨Script.exists_link_iff, fun lines n n' h => ⟨Script.branch_of_commands h, fun p hp => ?_, fun hnone => ?_⟩,
    fun p hp => ?_⟩
  · rw [Script.program_eq h, hp]
    rfl
  · cases hlink : Script.link cs with
    | ok p => exact absurd ⟨p, hlink⟩ hnone
    | error e =>
      obtain ⟨f, hf⟩ := e.exists_whileParsing
      refine ⟨f, ?_⟩
      rw [Script.program_eq h, hlink, ← hf]
      rfl
  · obtain ⟨ends, hends, hlinked⟩ := Script.getElem?_of_link hp
    have hclosed {i j : Nat} (h : Program.ClosedAt cs i j) :
        ∃ c, p[i]? = some c ∧ c.action = .openBlock ∧ c.branch = some (i + 1) ∧
          c.next = Script.following cs.length j := by
      obtain ⟨c, hi, hc⟩ := h.opening
      refine ⟨_, hlinked i c hi hc, ?_⟩
      rw [Script.linkAt, (Script.lookup_blocks_iff hends).2 h]
      exact ⟨hc, rfl, rfl⟩
    refine ⟨fun i j => hclosed, fun i h => ?_, ?_⟩
    · obtain ⟨⟨c, hi, hc⟩, hopen⟩ := h
      have hlookup : ends.lookup i = none :=
        Option.eq_none_iff_forall_ne_some.2 fun j hj => hopen j ((Script.lookup_blocks_iff hends).1 hj)
      refine ⟨c, _, hi, hlinked i c hi hc, ?_⟩
      rw [Script.linkAt, hlookup]
      exact ⟨hc, rfl, rfl⟩
    · rw [← Script.closed_iff_balanced hends]
      constructor
      · intro h i c hi hc
        obtain ⟨j, -, hj, -⟩ := h i c hi hc
        exact ⟨j, hj⟩
      · intro h i c hi hc
        obtain ⟨j, hj⟩ := h i c hi hc
        obtain ⟨d, hd, -, hbranch, hnext⟩ := hclosed hj
        exact ⟨j, d, hj, hd, hbranch, hnext⟩

def sampleOpen : List Command :=
  [⟨1, none, none, false, .openBlock, none, none⟩, ⟨2, none, none, false, .print, none, none⟩,
    ⟨3, none, none, false, .openBlock, none, none⟩, ⟨4, none, none, false, .print, none, none⟩,
    ⟨5, none, none, false, .closeBlock, none, none⟩]

theorem sampleOpen_loads :
    Program.ClosesOpen 0 sampleOpen ∧ Program.ClosedAt sampleOpen 2 4 ∧ Program.LeftOpen sampleOpen 0 ∧
      ∃ p n, Script.program [['{', 'p'], ['{', 'p'], ['}']] 1 = .ok p n ∧ ¬Program.BlocksLinked sampleOpen p ∧
        (∃ c, p[2]? = some c ∧ c.branch = some 3 ∧ c.next = none) ∧
        ∃ c, p[0]? = some c ∧ c.branch = none ∧ c.next = some 1 := by
  have hcommands : Outcome.result? (Script.commands [['{', 'p'], ['{', 'p'], ['}']] 1) = some sampleOpen := by
    decide +kernel
  have hends : Script.blocks [] 0 sampleOpen = .ok [(2, 4)] := rfl
  have hopen : Program.ClosesOpen 0 sampleOpen := Script.exists_blocks_iff.1 ⟨_, hends⟩
  have hclosed : Program.ClosedAt sampleOpen 2 4 := (Script.lookup_blocks_iff hends).1 rfl
  have hleft : Program.LeftOpen sampleOpen 0 := by
    refine ⟨⟨_, rfl, rfl⟩, fun j hj => ?_⟩
    cases (Script.lookup_blocks_iff hends).2 hj
  have hlabels : Program.LabelsDefined sampleOpen := by simp [Program.LabelsDefined, sampleOpen]
  obtain ⟨n, hn⟩ := Outcome.of_result? hcommands
  obtain ⟨hloads, hprogram, hlinks⟩ := script_with_open_blocks_loads sampleOpen
  obtain ⟨p, hp⟩ := hloads.2 ⟨by decide, hlabels, hopen⟩
  obtain ⟨hblock, hleftOpen, hbalanced⟩ := hlinks p hp
  obtain ⟨c, hc, -, hcb, hcn⟩ := hblock 2 4 hclosed
  obtain ⟨hfresh, hloaded, -⟩ := hprogram _ _ _ hn
  obtain ⟨c₀, d, hc₀, hd, -, hdb, hdn⟩ := hleftOpen 0 hleft
  have hdb : d.branch = none := hdb.trans (hfresh c₀ (List.mem_of_getElem? hc₀))
  refine ⟨hopen, hclosed, hleft, p, n, hloaded p hp, ?_, ⟨c, hc, hcb, hcn⟩, d, hd, hdb, hdn⟩
  rw [hbalanced]
  decide

theorem unclosed_block_loads :
    ∃ p n, Script.program [['{', 'p']] 1 = .ok p n ∧ p.balanced = false ∧
      ∃ c, p[0]? = some c ∧ c.action = .openBlock ∧ c.branch = none := by
  have hprogram : Outcome.result? (Script.program [['{', 'p']] 1) =
      some [⟨1, none, none, false, .openBlock, some 1, none⟩, ⟨2, none, none, false, .print, none, none⟩] := by
    decide +kernel
  obtain ⟨n, hn⟩ := Outcome.of_result? hprogram
  exact ⟨_, n, hn, by decide, _, rfl, rfl, rfl⟩

end StreamEditor
