import StreamEditor.Proofs.Outcome
import StreamEditor.Proofs.Script.Blocks

namespace StreamEditor

def Command.outline (c : Command) : Action.Kind × Option Nat × Option Nat := (c.action.kind, c.next, c.branch)

def Command.LinkedAt (size : Nat) (ends : List (Nat × Nat)) (c : Command) (i : Nat) : Prop :=
  c.next = Script.following size ((ends.lookup i).getD i) ∧
    ∀ stop, ends.lookup i = some stop → c.branch = some (i + 1)

namespace Script

lemma kind_resolve {cs : List Command} {c d : Command} (h : resolve cs c = .ok d) :
    d.action.kind = c.action.kind := by
  rw [resolve] at h
  split at h <;> rename_i ha
  case h_1 | h_2 =>
    obtain ⟨_, -, hd⟩ := bind_eq_ok.1 h
    cases hd
    simp [ha, Action.kind]
  all_goals
    cases h
    simp [ha, Action.kind]

lemma map_eq_of_mapM_ok {ε α β : Type} {f : α → Except ε α} {g : α → β} (hf : ∀ a b, f a = .ok b → g b = g a)
    {as bs : List α} (h : as.mapM f = .ok bs) : bs.map g = as.map g := by
  induction as generalizing bs with
  | nil =>
    cases h
    rfl
  | cons a as ih =>
    rw [List.mapM_cons] at h
    obtain ⟨b, hb, h⟩ := bind_eq_ok.1 h
    obtain ⟨bs', hs, h⟩ := bind_eq_ok.1 h
    cases h
    rw [List.map_cons, List.map_cons, hf a b hb, ih hs]

lemma getElem?_of_mapM {ε α β : Type} {f : α → Except ε β} {as : List α} {bs : List β}
    (h : as.mapM f = .ok bs) {i : Nat} {b : β} (hb : bs[i]? = some b) : ∃ a, as[i]? = some a ∧ f a = .ok b := by
  induction as generalizing bs i with
  | nil =>
    cases h
    simp at hb
  | cons a as ih =>
    rw [List.mapM_cons] at h
    obtain ⟨b₀, hb₀, h⟩ := bind_eq_ok.1 h
    obtain ⟨bs', hs, h⟩ := bind_eq_ok.1 h
    cases h
    cases i with
    | zero =>
      cases hb
      exact ⟨a, rfl, hb₀⟩
    | succ i => exact ih hs hb

lemma linkAt_action (size : Nat) (ends : List (Nat × Nat)) (c : Command) (i : Nat) :
    (linkAt size ends c i).action = c.action := by
  rw [linkAt]
  split <;> rfl

lemma linkedAt_linkAt (size : Nat) (ends : List (Nat × Nat)) (c : Command) (i : Nat) :
    (linkAt size ends c i).LinkedAt size ends i := by
  unfold linkAt Command.LinkedAt
  split <;> rename_i h <;> simp [h]

lemma kinds_linked (size : Nat) (ends : List (Nat × Nat)) (cs : List Command) :
    Program.kinds (cs.zipIdx.map fun (c, i) => linkAt size ends c i) = Program.kinds cs := by
  have h : (fun c : Command => c.action.kind) ∘ (fun (ci : Command × Nat) => linkAt size ends ci.1 ci.2) =
      (·.action.kind) ∘ Prod.fst := by
    funext ci
    simp [linkAt_action]
  rw [Program.kinds, List.map_map, h, ← List.map_map, List.zipIdx_map_fst, Program.kinds]

lemma of_link {cs : List Command} {p : Program} (h : link cs = .ok p) :
    p ≠ [] ∧ Program.kinds p = Program.kinds cs ∧ ∃ ends, blocks [] 0 cs = .ok ends ∧
      ∀ (i : Nat) (c : Command), p[i]? = some c →
        ∃ c₀ d, cs[i]? = some c₀ ∧ resolve cs c₀ = .ok d ∧ c = linkAt p.length ends d i := by
  rw [link] at h
  split at h
  · cases h
  · rename_i hne
    obtain ⟨resolved, hr, h⟩ := bind_eq_ok.1 h
    obtain ⟨ends, hb, h⟩ := bind_eq_ok.1 h
    have hk := map_eq_of_mapM_ok (g := (·.action.kind)) (fun _ _ => kind_resolve) hr
    have hl : resolved.length = cs.length := by simpa using congrArg List.length hk
    cases h
    refine ⟨?_, (kinds_linked _ _ _).trans hk, ends, hb, ?_⟩
    · intro hp
      have hz := congrArg List.length hp
      simp [hl] at hz
      exact hne (by simpa using hz)
    · intro i c hi
      simp only [List.getElem?_map, List.getElem?_zipIdx, Option.map_eq_some_iff] at hi
      obtain ⟨ci, ⟨d, hd, rfl⟩, rfl⟩ := hi
      obtain ⟨c₀, hc₀, hres⟩ := getElem?_of_mapM hr hd
      exact ⟨c₀, d, hc₀, hres, by simp [hl]⟩

lemma linkedAt_of_link {cs : List Command} {p : Program} (h : link cs = .ok p) :
    p ≠ [] ∧ ∃ ends, blocks [] 0 p = .ok ends ∧
      ∀ (i : Nat) (c : Command), p[i]? = some c → c.LinkedAt p.length ends i := by
  obtain ⟨hne, hk, ends, hb, hlink⟩ := of_link h
  refine ⟨hne, ends, (blocks_congr hk [] 0).trans hb, fun i c hi => ?_⟩
  obtain ⟨_, d, -, -, rfl⟩ := hlink i c hi
  exact linkedAt_linkAt p.length ends d i

lemma link_of_program {lines : List Text} {n n' : Nat} {p : Program} (h : program lines n = .ok p n') :
    ∃ cs n₁, commands lines n = .ok cs n₁ ∧ link cs = .ok p := by
  rw [program] at h
  split at h <;> rename_i hr
  · cases h
    obtain ⟨cs, n₁, hcs, hl⟩ := Outcome.bind_eq_ok.1 hr
    refine ⟨cs, n₁, hcs, ?_⟩
    cases hk : link cs with
    | ok p₁ =>
      rw [hk] at hl
      cases hl
      rfl
    | error e =>
      rw [hk] at hl
      cases hl
  · cases h

end Script

section

variable (mode : RegexpMode)

lemma Attempt.andThen_value {α β γ : Type} {a : Attempt α} {f : α → Attempt β} {stopped : α → β} {g : β → γ}
    {r : γ} (hf : g (f a.value).value = r) (hs : g (stopped a.value) = r) :
    g (a.andThen f stopped).value = r := by
  rw [andThen]
  split <;> assumption

lemma Command.prepare_keeps {γ : Type} {g : Command → γ} (hfirst : ∀ c a, g { c with first := a } = g c)
    (hsecond : ∀ c a, g { c with second := a } = g c) (haction : ∀ c, g (prepareAction mode c).value = g c)
    (c : Command) : g (c.prepare mode).value = g c := by
  have h₁ (c : Command) : g (c.prepareFirst mode).value = g c := by
    rw [prepareFirst]
    split
    · rfl
    · exact hfirst c _
  have h₂ (c : Command) : g (c.prepareSecond mode).value = g c := by
    rw [prepareSecond]
    split
    · rfl
    · exact hsecond c _
  have ha : g ((c.prepareFirst mode).andThen (prepareSecond mode) id).value = g c :=
    Attempt.andThen_value ((h₂ _).trans (h₁ c)) (h₁ c)
  exact Attempt.andThen_value ((haction _).trans ha) ha

lemma Program.prepare_keeps {γ : Type} {g : Command → γ} (hg : ∀ c, g (Command.prepare mode c).value = g c)
    (p : Program) : (p.prepare mode).value.map g = p.map g := by
  induction p with
  | nil => rfl
  | cons c cs ih =>
    rw [Program.prepare]
    refine Attempt.andThen_value ?_ ?_
    · simp [ih, hg]
    · simp [hg]

lemma getElem?_of_map_eq {α β : Type} {g : α → β} {as bs : List α} (h : as.map g = bs.map g) {i : Nat} {a : α}
    (ha : as[i]? = some a) : ∃ b, bs[i]? = some b ∧ g b = g a := by
  have hi := congrArg (·[i]?) h
  simp only [List.getElem?_map, ha, Option.map_some] at hi
  exact Option.map_eq_some_iff.1 hi.symm

lemma Program.outline_prepare (p : Program) :
    (p.prepare mode).value.map Command.outline = p.map Command.outline := by
  refine prepare_keeps mode (Command.prepare_keeps mode (fun _ _ => rfl) (fun _ _ => rfl) fun c => ?_) p
  rw [Command.prepareAction]
  split <;> rename_i ha
  · simp [Command.outline, ha, Action.kind]
  · simp [Command.outline, ha, Action.kind]
  · rfl

lemma Program.length_prepare (p : Program) : (p.prepare mode).value.length = p.length := by
  simpa using congrArg List.length (outline_prepare mode p)

lemma Program.letter_prepare (p : Program) :
    (p.prepare mode).value.map (·.action.letter) = p.map (·.action.letter) := by
  refine prepare_keeps mode (Command.prepare_keeps mode (fun _ _ => rfl) (fun _ _ => rfl) fun c => ?_) p
  rw [Command.prepareAction]
  split <;> rename_i ha
  · simp [ha, Action.letter]
  · simp [ha, Action.letter]
  · rfl

end

lemma Command.LinkedAt.congr {size : Nat} {ends ends' : List (Nat × Nat)} {c : Command} {i : Nat}
    (h : c.LinkedAt size ends i) (he : ends.lookup i = ends'.lookup i) : c.LinkedAt size ends' i := by
  rwa [LinkedAt, ← he]

namespace BlockTree

def Linked (p : Program) (i : Nat) : BlockTree → Prop
  | nil => True
  | command c _ rest => p[i]? = some c ∧ c.next = Script.following p.length i ∧ rest.Linked p (i + 1)
  | block opening _ body closing _ rest =>
    (p[i]? = some opening ∧ opening.branch = some (i + 1) ∧
      opening.next = Script.following p.length (i + 1 + body.size)) ∧
    body.Linked p (i + 1) ∧
    (p[i + 1 + body.size]? = some closing ∧ closing.next = Script.following p.length (i + 1 + body.size)) ∧
    rest.Linked p (i + 2 + body.size)

section

variable {opening closing : Command} {ho : opening.action = .openBlock} {hc : closing.action = .closeBlock}
  {body rest : BlockTree} {i j : Nat}

lemma lookup_spans_opening :
    ((block opening ho body closing hc rest).spans i).lookup i = some (i + 1 + body.size) := by
  rw [spans, List.lookup_append, lookup_spans_eq_none (.inl (by omega)), List.lookup_cons_self]
  rfl

lemma lookup_spans_body (hi : i < j) (hj : j ≤ i + 1 + body.size) :
    ((block opening ho body closing hc rest).spans i).lookup j = (body.spans (i + 1)).lookup j := by
  have hn : (j == i) = false := by simp; omega
  rw [spans, List.lookup_append, List.lookup_cons, hn]
  dsimp only
  rw [lookup_spans_eq_none (t := rest) (.inl (by omega)), Option.or_none]

lemma lookup_spans_rest (hj : i + 2 + body.size ≤ j) :
    ((block opening ho body closing hc rest).spans i).lookup j =
      (rest.spans (i + 2 + body.size)).lookup j := by
  have hn : (j == i) = false := by simp; omega
  rw [spans, List.lookup_append, List.lookup_cons, hn, lookup_spans_eq_none (.inr (by omega))]
  rfl

lemma getElem?_body {k : Nat} {c : Command} (h : body.commands[k]? = some c) :
    k < body.size ∧ (block opening ho body closing hc rest).commands[k + 1]? = some c := by
  have hk : k < body.commands.length := (List.getElem?_eq_some_iff.1 h).1
  exact ⟨length_commands body ▸ hk, by simpa [commands, List.getElem?_append, hk] using h⟩

lemma getElem?_closing : (block opening ho body closing hc rest).commands[body.size + 1]? = some closing := by
  simp [commands, ← length_commands]

lemma getElem?_rest {k : Nat} {c : Command} (h : rest.commands[k]? = some c) :
    (block opening ho body closing hc rest).commands[body.size + (k + 1) + 1]? = some c := by
  rw [commands, List.getElem?_cons_succ, ← length_commands, List.getElem?_append_right (by omega),
    Nat.add_sub_cancel_left, List.getElem?_cons_succ, h]

end

lemma linked_of_linkedAt {p : Program} {t : BlockTree} {i : Nat}
    (h : ∀ (k : Nat) (c : Command), t.commands[k]? = some c →
      p[i + k]? = some c ∧ c.LinkedAt p.length (t.spans i) (i + k)) :
    t.Linked p i := by
  induction t generalizing i with
  | nil => trivial
  | command c _ rest ih =>
    obtain ⟨hp, hc⟩ := h 0 c rfl
    have hn : (rest.spans (i + 1)).lookup i = none := lookup_spans_eq_none (.inl (by omega))
    refine ⟨hp, by simpa [Command.LinkedAt, spans, hn] using hc, ih fun k d hd => ?_⟩
    have hk := h (k + 1) d (by simpa [commands] using hd)
    rwa [show i + (k + 1) = i + 1 + k by omega] at hk
  | block opening _ body closing _ rest ihb ihr =>
    obtain ⟨hpo, hopen⟩ := h 0 opening rfl
    rw [Command.LinkedAt, Nat.add_zero, lookup_spans_opening] at hopen
    obtain ⟨hpc, hclose⟩ := h _ closing getElem?_closing
    rw [show i + (body.size + 1) = i + 1 + body.size by omega] at hpc hclose
    rw [Command.LinkedAt, lookup_spans_body (by omega) (by omega),
      lookup_spans_eq_none (.inr (by omega))] at hclose
    refine ⟨⟨hpo, hopen.2 _ rfl, hopen.1⟩, ihb fun k d hd => ?_, ⟨hpc, hclose.1⟩, ihr fun k d hd => ?_⟩
    · obtain ⟨hlt, hd⟩ := getElem?_body hd
      have hk := h _ d hd
      rw [show i + (k + 1) = i + 1 + k by omega] at hk
      exact ⟨hk.1, hk.2.congr (lookup_spans_body (by omega) (by omega))⟩
    · have hk := h _ d (getElem?_rest hd)
      rw [show i + (body.size + (k + 1) + 1) = i + 2 + body.size + k by omega] at hk
      exact ⟨hk.1, hk.2.congr (lookup_spans_rest (by omega))⟩

end BlockTree

lemma exists_linked_tree {lines : List Text} {n n' : Nat} {p : Program}
    (h : Script.program lines n = .ok p n') (hb : p.balanced = true) (mode : RegexpMode) :
    ∃ t : BlockTree, t.commands = (p.prepare mode).value ∧ 0 < t.size ∧ t.Linked t.commands 0 ∧
      Program.kinds t.commands = p.kinds := by
  obtain ⟨cs, -, -, hl⟩ := Script.link_of_program h
  obtain ⟨hne, ends, hends, hlinked⟩ := Script.linkedAt_of_link hl
  have ho := Program.outline_prepare mode p
  have hk : Program.kinds (p.prepare mode).value = p.kinds := by
    have hm := congrArg (List.map Prod.fst) ho
    rwa [List.map_map, List.map_map] at hm
  have hbp := (Script.blocks_congr hk [] 0).trans hends
  obtain ⟨t, ht⟩ := Script.exists_tree hbp (by rwa [Program.balanced, hk])
  rw [← ht] at ho hk hbp
  have hs : t.commands.length = p.length := by simpa using congrArg List.length ho
  have hsp : t.spans 0 = ends := by
    have hc := Script.blocks_commands t [] 0 []
    rw [List.append_nil, hbp] at hc
    simpa [Script.blocks, Except.map] using hc.symm
  refine ⟨t, ht, ?_, BlockTree.linked_of_linkedAt fun k c hkc => ?_, hk⟩
  · rw [← BlockTree.length_commands, hs]
    exact List.length_pos_iff.2 hne
  · rw [Nat.zero_add, hsp, hs]
    obtain ⟨d, hd, he⟩ := getElem?_of_map_eq ho hkc
    refine ⟨hkc, ?_⟩
    have hl := hlinked k d hd
    simp only [Command.outline, Prod.mk.injEq] at he
    rwa [Command.LinkedAt, ← he.2.1, ← he.2.2]

end StreamEditor
