import StreamEditor.Proofs.Dialect.Spelling

/-! A character that is escaped in a basic regexp. It stands for itself, unless the backslash makes it an operator. -/

namespace StreamEditor

open Dialect Regex

def isOperatorEscaped (d : Char) : Bool := ['(', ')', '|', '+', '?'].contains d

namespace Regex

lemma isSome_sweep {α : Type} {test : Char → Bool} {captures : List (Nat × Capture)} {k : Spot → Option α} {t : Text}
    {pos : Nat} (h : (k ⟨pos, t, captures⟩).isSome = true) (max : Option Nat) :
    (sweep test captures k t pos 0 max).isSome = true := by
  cases t with
  | nil => simpa [sweep] using h
  | cons c t =>
    rw [sweep]
    split
    · split
      · rfl
      · exact h
    · exact h

-- One round is enough, whatever more could be taken.
lemma isSome_run_rep {α : Type} {k : Spot → Option α} {c : Char} {t : Text} {pos : Nat}
    {captures : List (Nat × Capture)} {min : Nat} {max : Option Nat} (hmin : min ≤ 1) (hmax : max ≠ some 0)
    (h : (k ⟨pos + 1, t, captures⟩).isSome = true) :
    ((rep min max (.char c)).run false ⟨pos, c :: t, captures⟩ k).isSome = true := by
  have hrest (test : Char → Bool) : (sweep test captures k t (pos + 1) 0 (max.map (· - 1))).isSome = true :=
    isSome_sweep h _
  rw [run]
  change (sweep (fun d => decide (d = c)) captures k (c :: t) pos min max).isSome = true
  rw [sweep, if_pos ⟨hmax, by simp⟩, Nat.sub_eq_zero_of_le hmin]
  split
  · rfl
  · rename_i hnone
    have hsome := hrest fun d => decide (d = c)
    rw [hnone] at hsome
    cases hsome

lemma search_eq_true {r : Regex} {t : Text} (h : (matchAt false r ⟨0, t, []⟩ false).isSome = true) (pattern : Text) :
    Regexp.search ⟨pattern, false, some r⟩ t = .ok true := by
  obtain ⟨s, hs⟩ := Option.isSome_iff_exists.1 h
  rw [Regexp.search, Regexp.regex, Except.map, find?]
  cases t with
  | nil => rw [findFrom, hs]; rfl
  | cons c t => rw [findFrom, hs]; rfl

end Regex

section

variable {d : Char} {u v : Text} (hu : ∀ c ∈ u, Atom.isSpecial c = false) (hv : ∀ c ∈ v, Atom.isSpecial c = false)
include hu hv

lemma ofScript_escaped_unflipped (ha : d.isAlphanum = false) (hdigit : Text.isDigit d = false)
    (hf : isFlipped d = false) :
    ∃ p, Regexp.ofScript false false false (u ++ '\\' :: d :: v) =
      .ok (some ⟨p, false, some (literal (u ++ d :: v))⟩) := by
  obtain ⟨b, hb⟩ : ∃ b, Spells ['\\', d] b [d] := by
    cases hk : keepsEscape d with
    | true => exact ⟨_, spells_escape hk ha⟩
    | false => exact ⟨_, spells_unescape hk hdigit⟩
  have hspells := (spells_ordinary hu).append (hb.append (spells_ordinary hv))
  have hconvert : convert (u ++ '\\' :: d :: v) false = .ok (u ++ (b ++ v)) := by
    rw [convert_of_flips (flips_ordinary hu (.kept hf (flips_ordinary_self hv)))]
    exact hspells.translate_eq
  exact ⟨_, ofScript_eq (by simp) hconvert hspells.parse_eq false⟩

omit hu in
lemma head?_ordinary {c : Char} (hc : Atom.isSpecial c = true) : v.head? ≠ some c := by
  intro hhead
  rw [hv c (List.mem_of_mem_head? hhead)] at hc
  cases hc

lemma translate_operator (hf : isFlipped d = true) : translate (u ++ d :: v) = .ok (u ++ d :: v) := by
  have hquantifier : v.head?.any ['+', '*', '?', '{'].contains = false := by
    rw [Option.any_eq_false]
    intro c hc
    exact Text.contains_eq_false (p := Atom.isSpecial) (by decide) (hv c (List.mem_of_mem_head? hc))
  have hstep : ∀ whole previous,
      translateFrom whole previous (d :: v) = (translateFrom whole (some d) v).map (d :: ·) := by
    intro whole previous
    simp only [isFlipped, List.contains_eq_mem, List.mem_cons, List.not_mem_nil, or_false, decide_eq_true_eq] at hf
    rcases hf with rfl | rfl | rfl | rfl | rfl | rfl | rfl
    · exact translateFrom_opening whole previous (head?_ordinary hv rfl)
    · exact translateFrom_plain whole previous rfl v
    · exact translateFrom_plain whole previous rfl v
    · exact translateFrom_quantifier whole previous rfl hquantifier
    · exact translateFrom_plain whole previous rfl v
    · exact translateFrom_quantifier whole previous rfl hquantifier
    · exact translateFrom_quantifier whole previous rfl hquantifier
  have hrest := (spells_ordinary hv).translated (u ++ d :: v) (some d) []
  rw [List.append_nil, translateFrom_nil, Except.map, List.append_nil] at hrest
  rw [Dialect.translate, (spells_ordinary hu).translated, hstep, hrest]
  rfl

lemma convert_operator (hf : isFlipped d = true) :
    convert (u ++ '\\' :: d :: v) false = .ok (u ++ d :: v) := by
  rw [convert_of_flips (flips_ordinary hu (.escaped hf (flips_ordinary_self hv)))]
  exact translate_operator hu hv hf

lemma tokens_between {k : Token} (h : nextToken (d :: v) = some (k, v)) :
    tokens (u ++ d :: v) = (u.map Regex.char).map .item ++ k :: (v.map Regex.char).map .item := by
  have hrest := (spells_ordinary hv).tokens_eq []
  rw [List.append_nil, tokens_nil, List.append_nil] at hrest
  rw [(spells_ordinary hu).tokens_eq, tokens_cons h, hrest]
  simp [Function.comp_def]

lemma ofScript_escaped_brace (hd : d = '{' ∨ d = '}') :
    ∃ p, Regexp.ofScript false false false (u ++ '\\' :: d :: v) =
      .ok (some ⟨p, false, some (literal (u ++ d :: v))⟩) := by
  have hf : isFlipped d = true := by rcases hd with rfl | rfl <;> rfl
  have hnext : nextToken (d :: v) = some (.item (.char d), v) := by
    rcases hd with rfl | rfl
    · have hnone : readBounds v = none := by
        cases hr : readBounds v with
        | none => rfl
        | some r =>
          obtain ⟨ds, rfl, -⟩ := readBounds_eq_some hr
          cases hv '}' (by simp)
      rw [nextToken, hnone]
    · exact nextToken_char rfl v
  have hparse : Regex.parse (u ++ d :: v) = .ok (literal (u ++ d :: v)) := by
    refine parse_items ((tokens_between hu hv hnext).trans ?_)
    simp
  exact ⟨_, ofScript_eq (by simp) (convert_operator hu hv hf) hparse false⟩

lemma ofScript_escaped_parenthesis (hd : d = '(' ∨ d = ')') :
    Regexp.ofScript false false false (u ++ '\\' :: d :: v) = .error .patternRejected := by
  have hf : isFlipped d = true := by rcases hd with rfl | rfl <;> rfl
  have hparse : Regex.parse (u ++ d :: v) = .error .malformed := by
    rcases hd with rfl | rfl
    · rw [Regex.parse, tokens_between hu hv (k := .opening) rfl, List.foldlM_append, foldlM_items]
      change List.foldlM Builder.step _ ((v.map Regex.char).map .item) >>= _ = _
      rw [foldlM_items]
      rfl
    · rw [Regex.parse, tokens_between hu hv (k := .closing) rfl, List.foldlM_append, foldlM_items]
      rfl
  simp [Regexp.ofScript, convert_operator hu hv hf, hparse, Failure.ofRegex, bind, Except.bind]

lemma ofScript_escaped_bar :
    ∃ x, Regexp.ofScript false false false (u ++ '\\' :: '|' :: v) = .ok (some x) ∧ x.search u = .ok true := by
  have hparse : Regex.parse (u ++ '|' :: v) = .ok (.alt (literal u) (literal v)) := by
    rw [Regex.parse, tokens_between hu hv (k := .bar) rfl, List.foldlM_append, foldlM_items]
    change List.foldlM Builder.step _ ((v.map Regex.char).map .item) >>= _ = _
    rw [foldlM_items]
    simp [Builder.initial, Builder.result, Builder.body, ofBranches, literal, bind, Except.bind]
  refine ⟨_, ofScript_eq (by simp) (convert_operator hu hv rfl) hparse false, search_eq_true ?_ _⟩
  rw [matchAt, run, run_literal, if_pos (List.prefix_rfl)]
  rfl

omit hu hv in
lemma repeatLast_char {c : Char} (hd : d = '+' ∨ d = '?') (rs : List Regex) :
    ∃ min max lo hi, nextToken (d :: v) = some (.bounds lo hi, v) ∧ min ≤ 1 ∧ max ≠ some 0 ∧
      Builder.step ⟨[], [], .char c :: rs, 0⟩ (.bounds lo hi) = .ok ⟨[], [], .rep min max (.char c) :: rs, 0⟩ := by
  rcases hd with rfl | rfl
  · exact ⟨1, none, ['1'], [], rfl, le_rfl, by simp, rfl⟩
  · exact ⟨0, some 1, ['0'], ['1'], rfl, Nat.zero_le 1, by simp, rfl⟩

lemma ofScript_escaped_quantifier (hne : u ≠ []) (hd : d = '+' ∨ d = '?') :
    ∃ x, Regexp.ofScript false false false (u ++ '\\' :: d :: v) = .ok (some x) ∧ x.search (u ++ v) = .ok true := by
  have hf : isFlipped d = true := by rcases hd with rfl | rfl <;> rfl
  obtain ⟨w, c, rfl⟩ := (List.eq_nil_or_concat' u).resolve_left hne
  obtain ⟨min, max, lo, hi, hnext, hmin, hmax, hstep⟩ := repeatLast_char (v := v) (c := c) hd (w.map .char).reverse
  have hparse : Regex.parse (w ++ [c] ++ d :: v) =
      .ok (ofItems (w.map .char ++ .rep min max (.char c) :: v.map .char)) := by
    rw [Regex.parse, tokens_between hu hv hnext, List.foldlM_append, foldlM_items]
    have hitems : ((w ++ [c]).map Regex.char).reverse ++ [] = .char c :: (w.map .char).reverse := by simp
    simp only [Builder.initial, hitems, bind, Except.bind, List.foldlM_cons, hstep, foldlM_items]
    simp [Builder.result, Builder.body, ofBranches]
  refine ⟨_, ofScript_eq (by simp) (convert_operator hu hv hf) hparse false, search_eq_true ?_ _⟩
  rw [matchAt, run_ofItems_append, List.append_assoc, List.singleton_append]
  change (run false (literal w) _ _).isSome = true
  rw [run_literal, if_pos (List.prefix_append w _), List.drop_left, run_ofItems_cons]
  refine isSome_run_rep hmin hmax ?_
  change (run false (literal v) _ _).isSome = true
  rw [run_literal, if_pos List.prefix_rfl]
  rfl

lemma ofScript_escaped_literal (ha : d.isAlphanum = false) (hdigit : Text.isDigit d = false)
    (hd : isOperatorEscaped d = false) :
    ∃ p, Regexp.ofScript false false false (u ++ '\\' :: d :: v) =
      .ok (some ⟨p, false, some (literal (u ++ d :: v))⟩) := by
  cases hf : isFlipped d with
  | false => exact ofScript_escaped_unflipped hu hv ha hdigit hf
  | true =>
    have hbrace := Text.of_contains (p := fun d => isOperatorEscaped d || d = '{' || d = '}') (by decide) hf
    exact ofScript_escaped_brace hu hv (by simpa [hd] using hbrace)

-- The regexp is refused, or it finds something in a text too short for the character.
lemma ofScript_escaped_operator (hne : u ≠ []) (hd : isOperatorEscaped d = true) :
    (∃ e, Regexp.ofScript false false false (u ++ '\\' :: d :: v) = .error e) ∨
      ∃ x s, Regexp.ofScript false false false (u ++ '\\' :: d :: v) = .ok (some x) ∧ x.search s = .ok true ∧
        ¬ u ++ d :: v <:+: s := by
  have hlong {s : Text} (hs : s.length ≤ (u ++ v).length) : ¬ u ++ d :: v <:+: s := by
    intro hinfix
    have := hinfix.length_le
    simp only [List.length_append, List.length_cons] at this hs
    omega
  simp only [isOperatorEscaped, List.contains_eq_mem, List.mem_cons, List.not_mem_nil, or_false, decide_eq_true_eq] at hd
  rcases hd with hd | hd | rfl | hd | hd
  · exact .inl ⟨_, ofScript_escaped_parenthesis hu hv (.inl hd)⟩
  · exact .inl ⟨_, ofScript_escaped_parenthesis hu hv (.inr hd)⟩
  · obtain ⟨x, hx, hsearch⟩ := ofScript_escaped_bar hu hv
    exact .inr ⟨x, u, hx, hsearch, hlong (by simp)⟩
  · obtain ⟨x, hx, hsearch⟩ := ofScript_escaped_quantifier hu hv hne (.inl hd)
    exact .inr ⟨x, u ++ v, hx, hsearch, hlong le_rfl⟩
  · obtain ⟨x, hx, hsearch⟩ := ofScript_escaped_quantifier hu hv hne (.inr hd)
    exact .inr ⟨x, u ++ v, hx, hsearch, hlong le_rfl⟩

end

def Text.replaceFirst (old new t : Text) : Text :=
  match Text.firstIndex? old t with
  | none => t
  | some i => t.take i ++ new ++ t.drop (i + old.length)

lemma exists_of_ofScript {extended ignoreCase : Bool} {re : Text} {x : Regexp}
    (h : Regexp.ofScript false extended ignoreCase re = .ok (some x)) : ∃ p r, x = ⟨p, ignoreCase, some r⟩ := by
  rw [Regexp.ofScript] at h
  split at h
  · cases h
  · obtain ⟨p, -, h⟩ := bind_eq_ok.1 h
    rw [if_neg (by simp)] at h
    split at h
    · cases h
    · cases h
      exact ⟨_, _, rfl⟩

section

variable (pattern new s : Text)

lemma chosen_one (r : Regex) : r.chosen false 1 s = (r.find? false s).toList := by
  rw [chosen, if_neg Nat.one_ne_zero, Nat.sub_self, List.drop_zero, occurrences, occurrencesFrom,
    if_neg (by simp), find?]
  cases findFrom false r s 0 false with
  | none => rfl
  | some o => simp [occurrencesFrom]

lemma substitute?_one (r : Regex) :
    Regexp.substitute? ⟨pattern, false, some r⟩ (convertReplacement (quoteReplacement new)) 1 s =
      .ok ((r.find? false s).map fun o => splice s 0 [(o, new)]) := by
  have hc : ¬ Regexp.countLimit ≤ 1 := by decide
  simp only [Regexp.substitute?, Regexp.regex, if_neg hc, chosen_one, parse_convertReplacement, pieces_quoteReplacement,
    fits_chars]
  cases r.find? false s with
  | none => rfl
  | some o => simp [Template.substitute, expand_chars]

lemma exists_substitute?_one {extended : Bool} {re : Text} {x : Regexp} {s : Text}
    (hx : Regexp.ofScript false extended false re = .ok (some x)) (hs : x.search s = .ok true) :
    ∃ t, x.substitute? (convertReplacement (quoteReplacement new)) 1 s = .ok (some t) := by
  obtain ⟨p, r, rfl⟩ := exists_of_ofScript hx
  obtain ⟨o, ho⟩ := Option.isSome_iff_exists.1 (Except.ok.inj hs)
  rw [substitute?_one, ho]
  exact ⟨_, rfl⟩

lemma substitute?_one_literal {w : Text} (hw : w ≠ []) :
    Regexp.substitute? ⟨pattern, false, some (literal w)⟩ (convertReplacement (quoteReplacement new)) 1 s =
      .ok (if w <:+: s then some (Text.replaceFirst w new s) else none) := by
  rw [substitute?_one, find?, findFrom_literal hw, Text.replaceFirst]
  have hinfix := Text.firstIndex?_isSome_iff hw s
  cases hi : Text.firstIndex? w s with
  | none =>
    rw [if_neg (by simp [← hinfix, hi])]
    rfl
  | some i =>
    rw [if_pos (by simp [← hinfix, hi])]
    simp [splice]

lemma replaceFirst_eq_self {w : Text} (hw : w ≠ []) (h : ¬ w <:+: s) : Text.replaceFirst w new s = s := by
  rw [← Text.firstIndex?_isSome_iff hw, Bool.not_eq_true, Option.isSome_eq_false_iff, Option.isNone_iff_eq_none] at h
  rw [Text.replaceFirst, h]

lemma quoteReplacement_eq_self {new : Text} (h : ∀ c ∈ new, c ≠ '\\' ∧ c ≠ '&') : quoteReplacement new = new := by
  induction new with
  | nil => rfl
  | cons c new ih =>
    obtain ⟨hc, hnew⟩ := List.forall_mem_cons.1 h
    rw [quoteReplacement] at ih ⊢
    rw [List.flatMap_cons, if_neg (by simp [hc]), ih hnew]
    rfl

end

end StreamEditor
