import StreamEditor.Proofs.Outcome
import StreamEditor.Proofs.Outline.Groups
import StreamEditor.Proofs.Outline.Lexemes

/-! The regexp that a tree is written as, compared with the one it was read from: only parentheses are missing, and these
are the ones that are lost. -/

namespace StreamEditor.Outline

def Frame.text : Frame → Text
  | paren before => Node.textOf before.reverse
  | bar left => left.text ++ ['|']

namespace Builder

def branch (b : Builder) : Text := Node.textOf b.items.reverse

def text (b : Builder) : Text := b.frames.reverse.flatMap Frame.text ++ b.branch

lemma text_close (n : Node) (f : Frame) : (close n f).text = f.text ++ n.text := by
  cases f with
  | paren before =>
    rw [close, Node.text, List.reverse_cons, Node.textOf_append, Frame.text, Node.textOf, Node.textOf, List.append_nil]
  | bar left => rw [close, Node.text, Frame.text, List.append_assoc, List.singleton_append]

lemma text_foldl_close (frames : List Frame) (n : Node) :
    (frames.foldl close n).text = frames.reverse.flatMap Frame.text ++ n.text := by
  induction frames generalizing n with
  | nil => rfl
  | cons f frames ih => simp [ih, text_close]

lemma text_finish (b : Builder) : b.finish.text = b.text := by
  rw [finish, text_foldl_close, text, branch, Node.text]

lemma branch_push (b : Builder) (n : Node) : (b.push n).branch = b.branch ++ n.text := by
  simp [push, branch, Node.textOf]

variable {b b' : Builder} {t : Token}

lemma of_wrap {f : Node → Node} (h : b.wrap f = .ok b') (hf : ∀ n, (f n).text = n.text ++ t.text) :
    b'.frames = b.frames ∧ b'.branch = b.branch ++ t.text := by
  obtain ⟨frames, items⟩ := b
  cases items with
  | nil => cases h
  | cons n ns =>
    cases h
    exact ⟨rfl, by simp [branch, Node.textOf, hf]⟩

lemma of_take_plain (ht : t.IsPlain) (h : b.take t = .ok b') :
    b'.frames = b.frames ∧ b'.branch = b.branch ++ t.text := by
  cases t with
  | leaf n =>
    cases h
    exact ⟨rfl, branch_push b n⟩
  | mark c => exact of_wrap h fun n => rfl
  | bounds least most => exact of_wrap h fun n => rfl
  | opening | closing | bar | fault => cases ht

lemma take_closing (h : ∀ before frames, b.frames ≠ .paren before :: frames) :
    b.take .closing = .ok (b.push (.char ')')) := by
  rw [take]
  split
  · rename_i hframes
    exact absurd hframes (h _ _)
  · rfl

end Builder

open Builder

def Writes (ts : List Token) (x : Text) : Prop :=
  ∀ b b', ts.foldlM take b = .ok b' → b'.frames = b.frames ∧ b'.branch = b.branch ++ x

section

variable {t : Token} {ts us : List Token} {x y : Text} {b b' : Builder}

lemma foldlM_append_eq_ok :
    (ts ++ us).foldlM take b = .ok b' ↔ ∃ b₁, ts.foldlM take b = .ok b₁ ∧ us.foldlM take b₁ = .ok b' := by
  rw [List.foldlM_append, bind_eq_ok]

lemma foldlM_cons_eq_ok :
    (t :: ts).foldlM take b = .ok b' ↔ ∃ b₁, b.take t = .ok b₁ ∧ ts.foldlM take b₁ = .ok b' := by
  rw [List.foldlM_cons, bind_eq_ok]

lemma writes_nil : Writes [] [] := by
  intro b b' h
  cases h
  exact ⟨rfl, (List.append_nil _).symm⟩

lemma Writes.append (ht : Writes ts x) (hu : Writes us y) : Writes (ts ++ us) (x ++ y) := by
  intro b b' h
  obtain ⟨b₁, hts, hus⟩ := foldlM_append_eq_ok.1 h
  obtain ⟨hframes, hbranch⟩ := ht b b₁ hts
  obtain ⟨hframes', hbranch'⟩ := hu b₁ b' hus
  exact ⟨hframes'.trans hframes, by rw [hbranch', hbranch, List.append_assoc]⟩

lemma writes_plain (ht : t.IsPlain) : Writes [t] t.text := by
  intro b b' h
  obtain ⟨b₁, htake, hnil⟩ := foldlM_cons_eq_ok.1 h
  cases hnil
  exact of_take_plain ht htake

lemma writes_group (h : Writes ts x) : Writes (.opening :: (ts ++ [.closing])) ('(' :: (x ++ [')'])) := by
  intro b b' hrun
  obtain ⟨b₁, hopening, hrun⟩ := foldlM_cons_eq_ok.1 hrun
  cases hopening
  obtain ⟨⟨frames, items⟩, hbody, hclosing⟩ := foldlM_append_eq_ok.1 hrun
  obtain ⟨hframes, hbranch⟩ := h _ _ hbody
  cases hframes
  obtain ⟨b₂, hclosing, hnil⟩ := foldlM_cons_eq_ok.1 hclosing
  cases hnil
  cases hclosing
  have hitems : Node.textOf items.reverse = x := hbranch
  have hgroup := branch_push b (.group items.reverse)
  rw [Node.text, hitems] at hgroup
  exact ⟨rfl, hgroup⟩

lemma writes_balanced {ws : List Text} (hws : Balanced ws) (hbar : ['|'] ∉ ws) (hts : ts.map Token.text = ws)
    (hfits : ∀ t ∈ ts, t.Fits) : Writes ts ws.flatten := by
  induction hws generalizing ts with
  | nil =>
    rw [List.map_eq_nil_iff.1 hts]
    exact writes_nil
  | cons ho hc _ ih =>
    obtain ⟨t, ts, rfl, rfl, htail⟩ := List.map_eq_cons_iff.1 hts
    rw [List.mem_cons, not_or] at hbar
    rw [List.forall_mem_cons] at hfits
    have hplain := hfits.1.isPlain ho hc (Ne.symm hbar.1)
    exact (writes_plain hplain).append (ih hbar.2 htail hfits.2)
  | @group vs vs' _ _ ihbody ihrest =>
    obtain ⟨t, ts, rfl, ht, htail⟩ := List.map_eq_cons_iff.1 hts
    obtain ⟨us, ts, rfl, hus, htail⟩ := List.map_eq_append_iff.1 htail
    obtain ⟨u, us', rfl, hu, hus'⟩ := List.map_eq_cons_iff.1 htail
    simp only [List.mem_cons, List.mem_append, not_or] at hbar
    simp only [List.forall_mem_cons, List.forall_mem_append] at hfits
    obtain rfl := hfits.1.eq_opening ht
    obtain rfl := hfits.2.2.1.eq_closing hu
    have hbody := writes_group (ihbody hbar.2.1 hus hfits.2.1)
    have hrest := ihrest hbar.2.2.2 hus' hfits.2.2.2
    simpa using hbody.append hrest

end

def Blocked (b : Builder) (ws : List Text) : Prop :=
  ∀ before frames, b.frames = .paren before :: frames → Lost ws

section

variable {ts : List Token} {us ws : List Text} {b b' : Builder}

lemma Writes.step (hts : Writes ts us.flatten) (hus : Balanced us) (hbar : ['|'] ∉ us) (h : ts.foldlM take b = .ok b')
    (hb : Blocked b (us ++ ws)) : Blocked b' ws ∧ b'.text ++ kept ws = b.text ++ kept (us ++ ws) := by
  obtain ⟨hframes, hbranch⟩ := hts b b' h
  constructor
  · intro before frames hparen
    rw [← lost_append_iff hus hbar]
    exact hb before frames (hframes ▸ hparen)
  · rw [text, text, hframes, hbranch, kept_append hus hbar, List.append_assoc, List.append_assoc, List.append_assoc]

lemma step_plain {t : Token} (ht : t.IsPlain) (hne : t.text ∉ [['('], [')'], ['|']]) (h : b.take t = .ok b')
    (hb : Blocked b (t.text :: ws)) : Blocked b' ws ∧ b'.text ++ kept ws = b.text ++ kept (t.text :: ws) := by
  simp only [List.mem_cons, List.not_mem_nil, or_false, not_or] at hne
  have hwrites : Writes [t] [t.text].flatten := by simpa using writes_plain ht
  have hrun : [t].foldlM take b = .ok b' := foldlM_cons_eq_ok.2 ⟨b', h, rfl⟩
  exact hwrites.step (.cons hne.1 hne.2.1 .nil) (by simpa using Ne.symm hne.2.2) hrun hb

lemma step_bar (h : b.take .bar = .ok b') :
    Blocked b' ws ∧ b'.text ++ kept ws = b.text ++ kept (['|'] :: ws) := by
  cases h
  constructor
  · intro before frames hparen
    cases hparen
  · simp [text, branch, Frame.text, Node.text, Node.textOf, kept_cons_of_ne]

lemma step_closing (h : b.take .closing = .ok b') (hb : Blocked b ([')'] :: ws)) :
    Blocked b' ws ∧ b'.text ++ kept ws = b.text ++ kept ([')'] :: ws) := by
  have hparen (before : List Node) (frames : List Frame) : b.frames ≠ .paren before :: frames :=
    fun hframes => not_lost_closing ws (hb before frames hframes)
  rw [take_closing hparen] at h
  cases h
  constructor
  · intro before frames hframes
    exact absurd hframes (hparen before frames)
  · rw [text, text, branch_push, kept_cons_of_ne (by decide)]
    simp [push, Node.text]

lemma step_lost (h : b.take .opening = .ok b') (hlost : Lost ws) :
    Blocked b' ws ∧ b'.text ++ kept ws = b.text ++ kept (['('] :: ws) := by
  cases h
  constructor
  · intro _ _ _
    exact hlost
  · simp [text, branch, Frame.text, Node.textOf, kept_lost hlost]

lemma exists_group (hfits : ∀ t ∈ ts, t.Fits) (h : ¬Lost (ts.map Token.text)) :
    ∃ body rest, ts = body ++ .closing :: rest ∧ Balanced (body.map Token.text) ∧ ['|'] ∉ body.map Token.text := by
  obtain ⟨words, ⟨hwords, rest, heq⟩, hbar⟩ := not_lost_iff.1 h
  obtain ⟨body, ts, rfl, rfl, htail⟩ := List.map_eq_append_iff.1 heq
  obtain ⟨t, rest, rfl, ht, -⟩ := List.map_eq_cons_iff.1 htail
  obtain rfl := (hfits t (by simp)).eq_closing ht
  exact ⟨body, rest, rfl, hwords, hbar⟩

lemma step_group {body rest : List Token} (hfits : ∀ t ∈ body, t.Fits) (hbody : Balanced (body.map Token.text))
    (hbar : ['|'] ∉ body.map Token.text) (h : (.opening :: (body ++ .closing :: rest)).foldlM take b = .ok b')
    (hb : Blocked b (['('] :: (body ++ .closing :: rest).map Token.text)) :
    ∃ b₁, rest.foldlM take b₁ = .ok b' ∧ Blocked b₁ (rest.map Token.text) ∧
      b₁.text ++ kept (rest.map Token.text) = b.text ++ kept (['('] :: (body ++ .closing :: rest).map Token.text) := by
  have hgroup : Writes (.opening :: (body ++ [.closing])) (['('] :: (body.map Token.text ++ [[')']])).flatten := by
    simpa using writes_group (writes_balanced hbody hbar rfl hfits)
  have htokens : Token.opening :: (body ++ .closing :: rest) = .opening :: (body ++ [.closing]) ++ rest := by simp
  have hwords : ['('] :: (body ++ .closing :: rest).map Token.text =
      ['('] :: (body.map Token.text ++ [[')']]) ++ rest.map Token.text := by simp [Token.text]
  rw [htokens] at h
  rw [hwords] at hb ⊢
  obtain ⟨b₁, hrun, hrest⟩ := foldlM_append_eq_ok.1 h
  exact ⟨b₁, hrest, hgroup.step (.group hbody .nil) (by simpa using hbar) hrun hb⟩

-- By induction on the number of tokens, since a whole group may be taken at once.
lemma text_run (hfits : ∀ t ∈ ts, t.Fits) (h : ts.foldlM take b = .ok b') (hb : Blocked b (ts.map Token.text)) :
    b'.text = b.text ++ kept (ts.map Token.text) := by
  induction hn : ts.length using Nat.strongRecOn generalizing ts b with
  | _ n ih =>
    subst hn
    cases ts with
    | nil =>
      cases h
      exact (List.append_nil _).symm
    | cons t ts =>
      obtain ⟨b₁, htake, hrun⟩ := foldlM_cons_eq_ok.1 h
      obtain ⟨ht, hts⟩ := List.forall_mem_cons.1 hfits
      rw [List.map_cons] at hb ⊢
      have hone (hstep : Blocked b₁ (ts.map Token.text) ∧
          b₁.text ++ kept (ts.map Token.text) = b.text ++ kept (t.text :: ts.map Token.text)) :
          b'.text = b.text ++ kept (t.text :: ts.map Token.text) :=
        (ih _ (by simp) hts hrun hstep.1 rfl).trans hstep.2
      cases ht with
      | plain hplain hne => exact hone (step_plain hplain hne htake hb)
      | bar => exact hone (step_bar htake)
      | closing => exact hone (step_closing htake hb)
      | opening =>
        by_cases hlost : Lost (ts.map Token.text)
        · exact hone (step_lost htake hlost)
        · obtain ⟨body, rest, rfl, hbody, hbar⟩ := exists_group hts hlost
          obtain ⟨hfits, hrest⟩ := List.forall_mem_append.1 hts
          obtain ⟨b₂, hrun, hb₂, hstep⟩ := step_group hfits hbody hbar h hb
          exact (ih _ (by simp; omega) (List.forall_mem_cons.1 hrest).2 hrun hb₂ rfl).trans hstep

lemma fault_not_mem (h : ts.foldlM take b = .ok b') (e : Error) : .fault e ∉ ts := by
  induction ts generalizing b with
  | nil => simp
  | cons t ts ih =>
    obtain ⟨b₁, htake, hrun⟩ := foldlM_cons_eq_ok.1 h
    rw [List.mem_cons, not_or]
    refine ⟨?_, ih hrun⟩
    rintro rfl
    cases htake

end

lemma Node.text_unwrap (n : Node) : n.unwrap.text = n.text := by
  rw [unwrap.eq_def]
  split
  · simp [text, textOf]
  · rfl

section

variable {r : Text} {n : Node}

lemma text_of_parse (h : Node.parse r = .ok n) : ∃ ws, (∀ ws', Lexed r ws' ↔ ws' = ws) ∧ n.text = kept ws := by
  obtain ⟨b, hrun, hn⟩ := bind_eq_ok.1 h
  cases hn
  obtain ⟨ws, hws⟩ := exists_lexed (fault_not_mem hrun)
  obtain ⟨hmap, hfits⟩ := tokensFrom_of_lexed hws none
  have htext := text_run hfits hrun fun before frames hparen => by cases hparen
  refine ⟨ws, hws.iff_eq, ?_⟩
  rw [Node.text_unwrap, text_finish, htext, hmap]
  rfl

/-- A regexp that can be read is cut into lexemes in one way, and its tree is written as the regexp without the
parentheses that have no partner or a bar between them and it. If there are none, the tree is written as the regexp. -/
theorem parsed_text_without_lost (h : Node.parse r = .ok n) :
    ∃ ws, (∀ ws', Lexed r ws' ↔ ws' = ws) ∧ ws.flatten = r ∧ n.text = kept ws ∧
      ((∀ us vs, ws = us ++ ['('] :: vs → ∃ body, Encloses vs body ∧ ['|'] ∉ body) → n.text = r) := by
  obtain ⟨ws, hws, htext⟩ := text_of_parse h
  have hflatten : ws.flatten = r := ((hws ws).2 rfl).flatten_eq
  refine ⟨ws, hws, hflatten, htext, fun hgroups => ?_⟩
  rw [htext, ← hflatten]
  exact kept_eq_flatten_iff.2 fun us vs heq => not_lost_iff.2 (hgroups us vs heq)

lemma exists_parse (h : (Node.parse r).isOk = true) : ∃ n, Node.parse r = .ok n := by
  cases hr : Node.parse r with
  | ok n => exact ⟨n, rfl⟩
  | error e =>
    rw [hr] at h
    cases h

-- `(a(b)|c)\((d)([(]`
def sampleLost : List Text :=
  [['('], ['a'], ['('], ['b'], [')'], ['|'], ['c'], [')'], ['\\', '('], ['('], ['d'], [')'], ['('], ['[', '(', ']']]

theorem sampleLost_written :
    ∃ n, Node.parse sampleLost.flatten = .ok n ∧
      n.text = ['a', '(', 'b', ')', '|', 'c', ')', '\\', '(', '(', 'd', ')', '[', '(', ']'] := by
  obtain ⟨n, hn⟩ : ∃ n, Node.parse sampleLost.flatten = .ok n := exists_parse (by decide +kernel)
  obtain ⟨ws, hws, -, htext, -⟩ := parsed_text_without_lost hn
  have hset : IsLexeme ['[', '(', ']'] := show IsLexeme ('[' :: (['('] ++ [']'])) from .set (by decide)
  have hlexed : Lexed sampleLost.flatten sampleLost := lexed_flatten (by
    simp [sampleLost, hset, IsLexeme.escape, IsLexeme.single])
  refine ⟨n, hn, ?_⟩
  rw [htext, ← (hws _).1 hlexed]
  decide +kernel

/-- The tree of a regexp in which every parenthesis has its partner is written as the regexp if and only if no bar
stands between the two. -/
theorem balanced_text_eq_iff (h : Node.parse r = .ok n) :
    ∃ ws, (∀ ws', Lexed r ws' ↔ ws' = ws) ∧ (Balanced ws →
      (n.text = r ↔ ∀ us vs body, ws = us ++ ['('] :: vs → Encloses vs body → ['|'] ∉ body)) := by
  obtain ⟨ws, hws, htext⟩ := text_of_parse h
  refine ⟨ws, hws, fun hbalanced => ?_⟩
  rw [htext, ← ((hws ws).2 rfl).flatten_eq, kept_eq_flatten_iff]
  constructor
  · intro hkept us vs body heq hbody
    obtain ⟨body', hbody', hbar⟩ := not_lost_iff.1 (hkept us vs heq)
    rwa [hbody.unique hbody']
  · intro hbars us vs heq
    obtain ⟨body, hbody⟩ := hbalanced.exists_encloses heq
    exact not_lost_iff.2 ⟨body, hbody, hbars us vs body heq hbody⟩

def sampleAlternatives : List Text := [['('], ['a'], ['|'], ['b'], [')']]

lemma lexed_sampleAlternatives : Lexed sampleAlternatives.flatten sampleAlternatives := by
  apply lexed_flatten
  simp [sampleAlternatives, IsLexeme.single]

lemma balanced_alternatives : Balanced [['a'], ['|'], ['b']] :=
  .cons (by decide) (by decide) (.cons (by decide) (by decide) (.cons (by decide) (by decide) .nil))

lemma balanced_sampleAlternatives : Balanced sampleAlternatives := .group balanced_alternatives .nil

theorem sampleAlternatives_not_written_back :
    ∃ n, Node.parse sampleAlternatives.flatten = .ok n ∧ n.text ≠ sampleAlternatives.flatten := by
  obtain ⟨n, hn⟩ : ∃ n, Node.parse sampleAlternatives.flatten = .ok n := exists_parse (by decide +kernel)
  obtain ⟨ws, hws, hback⟩ := balanced_text_eq_iff hn
  obtain rfl := (hws _).1 lexed_sampleAlternatives
  refine ⟨n, hn, fun heq => ?_⟩
  have hbar := (hback balanced_sampleAlternatives).1 heq [] _ _ rfl ⟨balanced_alternatives, _, rfl⟩
  exact absurd hbar (by decide)

theorem group_of_alternatives_loses_parenthesis :
    Lexed sampleAlternatives.flatten sampleAlternatives ∧ Balanced sampleAlternatives ∧
      (Node.parse sampleAlternatives.flatten).toOption.map Node.text = some ['a', '|', 'b', ')'] :=
  ⟨lexed_sampleAlternatives, balanced_sampleAlternatives, by decide +kernel⟩

end

end StreamEditor.Outline
