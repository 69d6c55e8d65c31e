import StreamEditor.Proofs.Ere.Read
import StreamEditor.Proofs.Regex.Simplify

namespace StreamEditor

open Regex

lemma bound_ofNumber {n : Nat} (h : n < Builder.repetitionLimit) :
    Builder.bound (Text.ofNumber n) = .ok (some n) := by
  have hl : (Text.ofNumber n).length ≤ 10 :=
    (Nat.length_toDigits_le_iff (by decide) (by decide)).2 (h.trans (by decide))
  have hd : ¬ Text.digitLimit < (Text.ofNumber n).length := by
    rw [Text.digitLimit]
    omega
  simp [Builder.bound, Text.ofNumber_ne_nil, hd, Text.toNumber_ofNumber, Nat.not_le.2 h]

lemma Quantifier.bound_lowDigits {q : Quantifier} (h : q.wellFormed = true) :
    ∃ n, Builder.bound q.lowDigits = .ok n ∧ n.getD 0 = q.least := by
  cases q with
  | star => exact ⟨none, rfl, rfl⟩
  | plus => exact ⟨some 1, rfl, rfl⟩
  | optional => exact ⟨some 0, rfl, rfl⟩
  | exactly m | atLeast m => exact ⟨some m, bound_ofNumber (by simpa [wellFormed] using h), rfl⟩
  | between m n =>
    simp only [wellFormed, Bool.and_eq_true, decide_eq_true_eq] at h
    exact ⟨some m, bound_ofNumber (by omega), rfl⟩

lemma Quantifier.bound_highDigits {q : Quantifier} (h : q.wellFormed = true) :
    Builder.bound q.highDigits = .ok q.most := by
  cases q with
  | star | plus | optional | atLeast m => rfl
  | exactly m => exact bound_ofNumber (by simpa [wellFormed] using h)
  | between m n =>
    simp only [wellFormed, Bool.and_eq_true, decide_eq_true_eq] at h
    exact bound_ofNumber h.2

lemma Quantifier.not_most_lt_least {q : Quantifier} (h : q.wellFormed = true) :
    q.most.any (· < q.least) = false := by
  cases q with
  | between m n =>
    simp only [wellFormed, Bool.and_eq_true, decide_eq_true_eq] at h
    exact decide_eq_false (Nat.not_lt.2 h.1)
  | _ => simp [most, least]

abbrev buildFrom (b : Builder) (ls : List Lexeme) : Except Error Builder :=
  (ls.map Lexeme.token).foldlM Builder.step b

section

variable {frames : List Frame} {branches items : List Regex} {opened : Nat}

lemma buildFrom_quantified {r : Regex} (hr : (r.isAnchor || r.isRep) = false) {q : Option Quantifier}
    (hq : q.all Quantifier.wellFormed = true) :
    buildFrom ⟨frames, branches, r :: items, opened⟩ (q.toList.map .repeated) =
      .ok ⟨frames, branches, quantified r q :: items, opened⟩ := by
  cases q with
  | none => rfl
  | some q =>
    have hq : q.wellFormed = true := hq
    obtain ⟨n, hn, hl⟩ := q.bound_lowDigits hq
    simp [buildFrom, Lexeme.token, Builder.step, Builder.repeatLast, hn, hl, q.bound_highDigits hq,
      q.not_most_lt_least hq, hr, quantified, bind, Except.bind, pure, Except.pure]

lemma buildFrom_append (b : Builder) (ls ks : List Lexeme) :
    buildFrom b (ls ++ ks) = buildFrom b ls >>= fun b => buildFrom b ks := by
  rw [buildFrom, List.map_append, List.foldlM_append]

lemma buildFrom_cons (b : Builder) (l : Lexeme) (ls : List Lexeme) :
    buildFrom b (l :: ls) = b.step l.token >>= fun b => buildFrom b ls := by
  rw [buildFrom, List.map_cons, List.foldlM_cons]

lemma step_atom {a : Atom} (h : a.wellFormed opened (frames.map Frame.index) = true) :
    Builder.step ⟨frames, branches, items, opened⟩ (Lexeme.atom a).token =
      .ok ⟨frames, branches, a.regex :: items, opened⟩ := by
  cases a with
  | reference k =>
    simp only [Atom.wellFormed, Bool.and_eq_true, decide_eq_true_eq] at h
    have hf : frames.any (·.index = k) = false := by
      simpa [List.contains_eq_mem] using h.2
    simp [Lexeme.token, Builder.step, Atom.regex, h.1.2, hf]
  | _ => rfl

lemma buildFrom_branch (caret dollar : Bool) {ls : List Lexeme} {rs : List Regex} {n : Nat}
    (h : ∀ items, buildFrom ⟨frames, branches, items, opened⟩ ls =
      .ok ⟨frames, branches, rs.reverse ++ items, n⟩) :
    buildFrom ⟨frames, branches, [], opened⟩
        ((if caret then [.caret] else []) ++ (ls ++ if dollar then [.dollar] else [])) =
      .ok ⟨frames, branches, (branchItems caret rs dollar).reverse, n⟩ := by
  rw [buildFrom_append]
  have hc : buildFrom ⟨frames, branches, [], opened⟩ (if caret then [.caret] else []) =
      .ok ⟨frames, branches, if caret then [.start] else [], opened⟩ := by
    cases caret <;> rfl
  rw [hc]
  change buildFrom _ _ = _
  rw [buildFrom_append, h]
  cases caret <;> cases dollar <;> simp [branchItems, buildFrom, bind, Except.bind] <;> rfl

end

mutual

lemma Ere.buildFrom_lexemes {e : Ere} (frames : List Frame) {opened : Nat}
    (h : e.wellFormed opened (frames.map Frame.index) = true) (branches : List Regex) :
    ∃ b, buildFrom ⟨frames, branches, [], opened⟩ e.lexemes = .ok b ∧ b.frames = frames ∧
      b.opened = opened + e.groups ∧ b.body = ofBranches (branches.reverse ++ e.branches opened) := by
  cases e with
  | single caret items dollar =>
    refine ⟨_, buildFrom_branch caret dollar (fun _ => Items.buildFrom_lexemes h branches _), rfl, rfl, ?_⟩
    simp [Builder.body, Ere.branches]
  | alt caret items dollar others =>
    obtain ⟨hi, ho⟩ := Bool.and_eq_true_iff.1 h
    have hb := buildFrom_branch caret dollar (fun rs => Items.buildFrom_lexemes hi branches rs)
    obtain ⟨b, hr, hf, hn, hbody⟩ := Ere.buildFrom_lexemes frames ho
      (ofItems (branchItems caret (items.regexes opened) dollar) :: branches)
    refine ⟨b, ?_, hf, ?_, ?_⟩
    · rw [Ere.lexemes, ← List.append_assoc, ← List.append_assoc, List.append_assoc (if caret = true then _ else _),
        buildFrom_append, hb]
      change buildFrom _ (.bar :: others.lexemes) = _
      rw [buildFrom_cons]
      simpa [Lexeme.token, Builder.step, bind, Except.bind] using hr
    · rw [hn, Ere.groups]
      omega
    · simpa [Ere.branches] using hbody

lemma Items.buildFrom_lexemes {is : Items} {frames : List Frame} {opened : Nat}
    (h : is.wellFormed opened (frames.map Frame.index) = true) (branches items : List Regex) :
    buildFrom ⟨frames, branches, items, opened⟩ is.lexemes =
      .ok ⟨frames, branches, (is.regexes opened).reverse ++ items, opened + is.groups⟩ := by
  cases is with
  | nil => rfl
  | atom a q rest =>
    simp only [Items.wellFormed, Bool.and_eq_true] at h
    have hr := Items.buildFrom_lexemes h.2 branches (quantified a.regex q :: items)
    rw [Items.lexemes, buildFrom_cons, step_atom h.1.1]
    change buildFrom _ (_ ++ _) = _
    rw [buildFrom_append, buildFrom_quantified (by cases a <;> rfl) h.1.2]
    simpa [Items.regexes, Items.groups, bind, Except.bind] using hr
  | group body q rest =>
    simp only [Items.wellFormed, Bool.and_eq_true] at h
    obtain ⟨b, hb, hf, hn, hbody⟩ := Ere.buildFrom_lexemes
      (⟨opened + 1, branches, items⟩ :: frames) (by simpa using h.1.1) []
    have hr := Items.buildFrom_lexemes h.2 branches
      (quantified (.group (opened + 1) (.ofBranches (body.branches (opened + 1)))) q :: items)
    have hc : b.step Lexeme.closing.token = .ok ⟨frames, branches,
        .group (opened + 1) (.ofBranches (body.branches (opened + 1))) :: items,
        opened + 1 + body.groups⟩ := by
      simp [Lexeme.token, Builder.step, hf, hbody, hn]
    rw [Items.lexemes, buildFrom_cons]
    change buildFrom _ _ = _
    rw [buildFrom_append, hb]
    change buildFrom b _ = _
    rw [buildFrom_cons, hc]
    change buildFrom _ _ = _
    rw [buildFrom_append, buildFrom_quantified rfl h.1.2]
    change buildFrom _ _ = _
    rw [hr]
    simp only [Items.regexes, Items.groups, List.reverse_cons, List.append_assoc, List.singleton_append]
    congr 2
    omega

end

lemma simplify_token_protect (ls : List Lexeme) :
    ((Lexeme.protect ls).map Lexeme.token).map Token.simplify =
      (ls.map Lexeme.token).map Token.simplify := by
  fun_induction Lexeme.protect ls with
  | case1 => rfl
  | case2 k c ls hc ih =>
    simp only [List.map_cons, ih]
    rfl
  | case3 k c ls hc ih => simp only [List.map_cons, ih]
  | case4 l ls hn ih => simp only [List.map_cons, ih]

lemma parse_pattern {ls : List Lexeme} (hw : ∀ l ∈ ls, l.wellFormed = true) (ha : Lexeme.Apart ls)
    {b : Builder} (hb : buildFrom Builder.initial ls = .ok b) (hf : b.frames = []) :
    Regex.parse (ls.flatMap Lexeme.pattern) = .ok b.body := by
  rw [Regex.parse, Lexeme.tokens_pattern hw ha]
  change (buildFrom Builder.initial ls >>= Builder.result) = _
  rw [hb]
  simp [bind, Except.bind, Builder.result, hf]

-- Tokens that simplify alike are built alike, so the sets around digits do no harm.
lemma parse_lexemes {e : Ere} (h : e.wellFormed 0 [] = true) :
    ∃ r, Regex.parse ((Lexeme.protect e.lexemes).flatMap Lexeme.pattern) = .ok r ∧
      r.simplify = e.regex.simplify := by
  obtain ⟨b, hb, hf, -, hbody⟩ := Ere.buildFrom_lexemes [] h []
  have hw := Lexeme.wellFormed_protect (Ere.wellFormed_lexemes h)
  have hs := Builder.foldlM_simplify (e.lexemes.map Lexeme.token) Builder.initial
  have hp := Builder.foldlM_simplify ((Lexeme.protect e.lexemes).map Lexeme.token) Builder.initial
  rw [simplify_token_protect, hs, show (e.lexemes.map Lexeme.token).foldlM Builder.step
    Builder.initial = .ok b from hb] at hp
  cases hr : ((Lexeme.protect e.lexemes).map Lexeme.token).foldlM Builder.step Builder.initial with
  | error err =>
    rw [hr] at hp
    cases hp
  | ok b' =>
    rw [hr] at hp
    have he : b.simplify = b'.simplify := Except.ok.inj hp
    have hf' : b'.frames = [] := by
      have hm : b.simplify.frames = b'.simplify.frames := congrArg Builder.frames he
      simpa [Builder.simplify, hf] using hm
    refine ⟨b'.body, parse_pattern hw (Lexeme.apart_protect _) hr hf', ?_⟩
    rw [← Builder.body_simplify, ← he, Builder.body_simplify, hbody]
    rfl

/-- A written tree is translated, and read back as the pattern it stands for, up to sets of one
character. -/
theorem convert_written_reads_tree (e : Ere) (h : e.wellFormed 0 [] = true) :
    ∃ p r, Dialect.convert e.written true = .ok p ∧ Regex.parse p = .ok r ∧
      r.simplify = e.regex.simplify ∧
      ∀ (α : Type) (ignoreCase : Bool) (s : Spot) (k : Spot → Option α),
        r.run ignoreCase s k = e.regex.run ignoreCase s k := by
  obtain ⟨r, hr, hs⟩ := parse_lexemes h
  refine ⟨_, r, translate_written h, hr, hs, ?_⟩
  intro α ignoreCase s k
  rw [← run_simplify, hs, run_simplify]

-- `^(a+|[^x-z.])\12{2,3}|()\.$`
def sampleTree : Ere :=
  .alt true
    (.group
      (.alt false (.atom (.char 'a') (some .plus) .nil) false
        (.single false (.atom (.set ⟨true, [.range 'x' 'z', .single '.']⟩) none .nil) false))
      none (.atom (.reference 1) none (.atom (.char '2') (some (.between 2 3)) .nil)))
    false
    (.single false (.group (.single false .nil false) none (.atom (.char '.') none .nil)) true)

theorem convert_sampleTree_reads_tree :
    sampleTree.wellFormed 0 [] = true ∧
    sampleTree.written = ['^', '(', 'a', '+', '|', '[', '^', 'x', '-', 'z', '.', ']', ')', '\\', '1', '2',
      '{', '2', ',', '3', '}', '|', '(', ')', '\\', '.', '$'] ∧
    ∃ p r, Dialect.convert sampleTree.written true = .ok p ∧ Regex.parse p = .ok r ∧
      r.simplify = sampleTree.regex.simplify ∧
      ∀ (α : Type) (ignoreCase : Bool) (s : Spot) (k : Spot → Option α),
        r.run ignoreCase s k = sampleTree.regex.run ignoreCase s k :=
  ⟨by decide, by decide, convert_written_reads_tree sampleTree (by decide)⟩

end StreamEditor
