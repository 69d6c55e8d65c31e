import StreamEditor.Proofs.Dialect.Symbols
import StreamEditor.Proofs.Regex.Tokens

namespace StreamEditor.Dialect

open Regex

def pairsBackslashes : Text → Bool
  | [] => true
  | '\\' :: c :: rest => ['\\', 'n', 't'].contains c && pairsBackslashes rest
  | c :: rest => c ≠ '\\' && pairsBackslashes rest

def isEscapable (c : Char) : Bool :=
  ['\\', '.', '^', '$', '*', '+', '?', '(', ')', '{', '}', '[', ']', '|', 'n', 't', 'Z'].contains c

/-- Symbols of a pattern that need none of the language's own escapes, groups and quantifiers. -/
structure Confined (ys : List Symbol) : Prop where
  escapes : ∀ c, .escape c ∈ ys → isEscapable c = true ∨ Text.isDigit c = true
  openings : ys.IsChain fun x y => ¬(x = .char '(' ∧ y = .char '?')
  quantifiers : ys.IsChain fun x y =>
    ¬(x.isAmong ['+', '*', '?', '}'] = true ∧ y.isAmong ['+', '*', '?', '{'] = true)
  dollar : .char '$' ∉ ys
  sets : ∀ inside, .set inside ∈ ys → pairsBackslashes inside = true

lemma pairsBackslashes_cons {c : Char} (hc : c ≠ '\\') (t : Text) :
    pairsBackslashes (c :: t) = pairsBackslashes t := by
  rw [pairsBackslashes]
  · simp [hc]
  · rintro d rest rfl
    exact absurd rfl hc

lemma pairsBackslashes_pair {c : Char} (hc : ['\\', 'n', 't'].contains c = true) (t : Text) :
    pairsBackslashes ('\\' :: c :: t) = pairsBackslashes t := by
  rw [pairsBackslashes, hc, Bool.true_and]

-- The letter after a backslash that is not doubled is taken together with it.
lemma pairsBackslashes_doubleBackslashes (t : Text) : pairsBackslashes (doubleBackslashes t) = true := by
  fun_induction doubleBackslashes t with
  | case1 => rfl
  | case2 c rest hc ih => rwa [pairsBackslashes_pair rfl]
  | case3 c rest hc ih =>
    by_cases hs : c = '\\'
    · subst hs
      obtain ⟨d, rest, rfl, hd⟩ : ∃ d rest', rest = d :: rest' ∧ (d = 'n' ∨ d = 't') := by
        cases rest with
        | nil => simp at hc
        | cons d rest => exact ⟨d, rest, rfl, by simpa [Classical.or_iff_not_imp_left] using hc⟩
      have hletter : d ≠ '\\' ∧ ['\\', 'n', 't'].contains d = true := by
        rcases hd with rfl | rfl <;> decide
      rw [doubleBackslashes, if_neg (by simp [hletter.1])] at ih ⊢
      rwa [pairsBackslashes_cons hletter.1, ← pairsBackslashes_pair hletter.2] at ih
    · rwa [pairsBackslashes_cons hs]

section

variable {x : Symbol} {xs : List Symbol} {previous : Option Symbol}

lemma mem_images {y : Symbol} (h : y ∈ images previous xs) :
    ∃ x before next, x ∈ xs ∧ y = x.image before next := by
  induction xs generalizing previous with
  | nil => cases h
  | cons x xs ih =>
    rcases List.mem_cons.1 h with rfl | h
    · exact ⟨x, _, _, List.mem_cons_self, rfl⟩
    · obtain ⟨z, before, next, hz, hy⟩ := ih h
      exact ⟨z, before, next, List.mem_cons_of_mem _ hz, hy⟩

lemma isChain_images {R S : Symbol → Symbol → Prop}
    (hRS : ∀ x y b n b' n', R x y → S (x.image b n) (y.image b' n')) (h : xs.IsChain R) (previous : Option Symbol) :
    (images previous xs).IsChain S := by
  induction xs generalizing previous with
  | nil => exact .nil
  | cons x xs ih =>
    obtain ⟨hhead, htail⟩ := List.isChain_cons.1 h
    refine List.isChain_cons.2 ⟨fun y hy => ?_, ih htail _⟩
    cases xs with
    | nil => cases hy
    | cons z xs =>
      cases hy
      exact hRS _ _ _ _ _ _ (hhead z rfl)

lemma isAmong_of_image {cs : Text} (hcs : cs.all (fun c => keepsEscape c && c ≠ '^') = true)
    {before next : Option Symbol} (h : (x.image before next).isAmong cs = true) : x.isAmong cs = true := by
  cases x with
  | char c =>
    rw [Symbol.image] at h
    split at h
    · split at h
      · exact absurd (Text.of_contains hcs h) (by decide)
      · cases h
    · split at h
      · split at h <;> cases h
      · split at h
        · cases h
        · exact h
  | escape c =>
    rw [Symbol.image] at h
    split at h
    · cases h
    · rename_i hkeeps
      have hc := Text.of_contains hcs h
      simp only [Bool.and_eq_true] at hc
      simp [hc.1] at hkeeps
  | set inside => cases h

lemma eq_char_iff {c : Char} : x = .char c ↔ x.isAmong [c] = true := by
  cases x <;> simp [Symbol.isAmong]

lemma escape_of_image {before next : Option Symbol} {c : Char} (h : .escape c = x.image before next) :
    c = '^' ∨ c = 'Z' ∨ c = '$' ∨ keepsEscape c = true ∨ Text.isDigit c = true := by
  cases x with
  | char d =>
    rw [Symbol.image] at h
    split at h
    · split at h <;> cases h
      exact .inl rfl
    · split at h
      · split at h <;> cases h
        · exact .inr (.inl rfl)
        · exact .inr (.inr (.inl rfl))
      · split at h <;> cases h
  | escape d =>
    rw [Symbol.image] at h
    split at h
    · rename_i hd
      cases h
      exact .inr (.inr (.inr (by simpa using hd)))
    · cases h
  | set inside => cases h

lemma ne_dollar_of_image (x : Symbol) (before next : Option Symbol) : x.image before next ≠ .char '$' := by
  cases x with
  | char c =>
    rw [Symbol.image]
    repeat' split
    all_goals simp_all
  | escape c =>
    rw [Symbol.image]
    split
    · simp
    · rintro ⟨⟩
      rename_i hkeeps
      exact hkeeps rfl
  | set inside => simp [Symbol.image]

lemma pairsBackslashes_of_image {before next : Option Symbol} {inside : Text} (h : .set inside = x.image before next) :
    pairsBackslashes inside = true := by
  cases x with
  | char c =>
    rw [Symbol.image] at h
    split at h
    · split at h <;> cases h
    · split at h
      · split at h <;> cases h
      · split at h <;> cases h
        rename_i hdigit
        have hc : c ≠ '\\' := by
          rintro rfl
          simp only [Bool.and_eq_true] at hdigit
          exact absurd hdigit.2 (by decide)
        rw [pairsBackslashes_cons hc]
        rfl
  | escape c =>
    rw [Symbol.image] at h
    split at h <;> cases h
  | set text =>
    cases h
    exact pairsBackslashes_doubleBackslashes text

lemma confined_images (h : Fitting xs) : Confined (images none xs) where
  escapes c hc := by
    obtain ⟨x, before, next, -, hx⟩ := mem_images hc
    rcases escape_of_image hx with rfl | rfl | rfl | hkeeps | hdigit
    · exact .inl rfl
    · exact .inl rfl
    · exact .inl rfl
    · refine .inl ?_
      simp only [keepsEscape, isEscapable, List.contains_eq_mem, decide_eq_true_eq] at hkeeps ⊢
      exact List.mem_append_left ['Z'] hkeeps
    · exact .inr hdigit
  openings := by
    refine isChain_images (fun x y b n b' n' hfit => ?_) h none
    rintro ⟨hx, hy⟩
    rw [eq_char_iff] at hx hy
    simp [Symbol.mayPrecede, isAmong_of_image (by decide) hx, isAmong_of_image (by decide) hy] at hfit
  quantifiers := by
    refine isChain_images (fun x y b n b' n' hfit => ?_) h none
    rintro ⟨hx, hy⟩
    simp [Symbol.mayPrecede, isAmong_of_image (by decide) hx, isAmong_of_image (by decide) hy] at hfit
  dollar hmem := by
    obtain ⟨x, before, next, -, hx⟩ := mem_images hmem
    exact ne_dollar_of_image x before next hx.symm
  sets inside hmem := by
    obtain ⟨x, before, next, -, hx⟩ := mem_images hmem
    exact pairsBackslashes_of_image hx

end

section

variable {body t rest : Text}

lemma setChar_append {c : Char} (hb : pairsBackslashes body = true) (hne : body ≠ [])
    (h : setChar (body ++ t) = some (c, rest)) :
    ∃ after, rest = after ++ t ∧ pairsBackslashes after = true ∧ after <:+ body.tail := by
  obtain ⟨d, body, rfl⟩ := List.exists_cons_of_ne_nil hne
  by_cases hd : d = '\\'
  · subst hd
    cases body with
    | nil => cases hb
    | cons e body =>
      rw [pairsBackslashes, Bool.and_eq_true] at hb
      obtain ⟨f, -, hf⟩ := Option.map_eq_some_iff.1 h
      cases hf
      exact ⟨body, rfl, hb.2, List.suffix_cons e body⟩
  · rw [pairsBackslashes_cons hd] at hb
    rw [List.cons_append, setChar] at h
    · cases h
      exact ⟨body, rfl, hb, List.suffix_rfl⟩
    all_goals simp_all

lemma setChar_inside {found : List SetItem} {c : Char} (hb : pairsBackslashes body = true)
    (hfirst : found = [] → body ≠ []) (hclosing : ']' ∉ if found = [] then body.tail else body)
    (hc : ¬(!found.isEmpty && (body ++ ']' :: t).head? = some ']') = true)
    (h : setChar (body ++ ']' :: t) = some (c, rest)) :
    ∃ after, rest = after ++ ']' :: t ∧ pairsBackslashes after = true ∧ ']' ∉ after := by
  have hne : body ≠ [] := by
    rintro rfl
    exact hfirst (by simpa using hc) rfl
  have htail : ']' ∉ body.tail := by
    split at hclosing
    · exact hclosing
    · exact fun hmem => hclosing (List.mem_of_mem_tail hmem)
  obtain ⟨after, hrest, hafter, hsuffix⟩ := setChar_append hb hne h
  exact ⟨after, hrest, hafter, fun hmem => htail (hsuffix.subset hmem)⟩

lemma setItems_append {found items : List SetItem} (hb : pairsBackslashes body = true)
    (hfirst : found = [] → body ≠ []) (hclosing : ']' ∉ if found = [] then body.tail else body)
    (h : setItems found (body ++ ']' :: t) = some (items, rest)) : rest = t := by
  generalize htext : body ++ ']' :: t = text at h
  fun_induction setItems found text generalizing body items rest with
  | case1 found text hc =>
    subst htext
    cases h
    cases body with
    | nil => rfl
    | cons c body =>
      simp only [Bool.and_eq_true, Bool.not_eq_true', List.isEmpty_eq_false_iff, decide_eq_true_eq, List.cons_append,
        List.head?_cons, Option.some.injEq] at hc
      rw [if_neg hc.1, hc.2] at hclosing
      exact (hclosing List.mem_cons_self).elim
  | case2 => cases h
  | case3 found text hc c r hr =>
    subst htext
    cases h
    obtain ⟨after, hrest, -, hout⟩ := setChar_inside hb hfirst hclosing hc hr
    rcases List.cons_eq_append_iff.1 hrest with ⟨-, hbracket⟩ | ⟨after', rfl, hrest'⟩
    · cases hbracket
    · rcases List.cons_eq_append_iff.1 hrest' with ⟨-, hbracket⟩ | ⟨after'', rfl, -⟩
      · exact (List.cons.inj hbracket).2.symm
      · simp at hout
  | case4 => cases h
  | case5 => cases h
  | case6 found text hc c r hne hr d r' hd hlt this ih =>
    subst htext
    obtain ⟨after, hrest, hpairs, hout⟩ := setChar_inside hb hfirst hclosing hc hr
    rcases List.cons_eq_append_iff.1 hrest with ⟨rfl, hrest⟩ | ⟨after, rfl, rfl⟩
    · cases hrest
    · rw [pairsBackslashes_cons (by decide)] at hpairs
      rw [List.mem_cons, not_or] at hout
      have hafter : after ≠ [] := by
        rintro rfl
        exact hne t rfl
      obtain ⟨after', rfl, hpairs', hsuffix⟩ := setChar_append hpairs hafter hd
      refine ih hpairs' (by simp) ?_ rfl h
      rw [if_neg (by simp)]
      exact fun hmem => hout.2 (List.mem_of_mem_tail (hsuffix.subset hmem))
  | case7 found text hc c r hne hne' hr this ih =>
    subst htext
    obtain ⟨after, rfl, hpairs, hout⟩ := setChar_inside hb hfirst hclosing hc hr
    exact ih hpairs (by simp) (by simpa using hout) rfl h

lemma readSet_append {inside : Text} {set : CharSet} (hi : (Symbol.set inside).WellFormed)
    (hb : pairsBackslashes inside = true) (hs : inside ≠ ['^']) (h : readSet (inside ++ ']' :: t) = some (set, rest)) :
    rest = t := by
  obtain ⟨hne, hclosing⟩ := hi
  obtain ⟨c, body, rfl⟩ := List.exists_cons_of_ne_nil hne
  rw [List.tail_cons] at hclosing
  by_cases hc : c = '^'
  · subst hc
    obtain ⟨⟨items, r⟩, hitems, hr⟩ := Option.map_eq_some_iff.1 h
    cases hr
    rw [pairsBackslashes_cons (by decide)] at hb
    refine setItems_append hb (fun _ => by simpa using hs) ?_ hitems
    rw [if_pos rfl]
    exact fun hmem => hclosing (List.mem_of_mem_tail hmem)
  · rw [List.cons_append, readSet] at h
    · obtain ⟨⟨items, r⟩, hitems, hr⟩ := Option.map_eq_some_iff.1 h
      cases hr
      exact setItems_append hb (by simp) (by simpa using hclosing) hitems
    · simpa using hc

end

section

variable {ys zs : List Symbol} {t rest : Text}

lemma exists_eq_map_char {u : Text} (hu : ∀ c ∈ u, c ≠ '\\' ∧ c ≠ '[')
    (h : zs.flatMap Symbol.written = u ++ rest) :
    ∃ after, zs = u.map .char ++ after ∧ after.flatMap Symbol.written = rest := by
  induction u generalizing zs with
  | nil => exact ⟨zs, rfl, h⟩
  | cons c u ih =>
    obtain ⟨hc, hu'⟩ := List.forall_mem_cons.1 hu
    cases zs with
    | nil => cases h
    | cons z zs =>
      cases z with
      | char d =>
        obtain ⟨rfl, htail⟩ := List.cons.inj h
        obtain ⟨after, rfl, hafter⟩ := ih hu' htail
        exact ⟨after, rfl, hafter⟩
      | escape d => exact absurd (List.cons.inj h).1.symm hc.1
      | set inside => exact absurd (List.cons.inj h).1.symm hc.2

lemma nextToken_symbols {k : Token} (hwell : ∀ x ∈ zs, x.WellFormed)
    (hsets : ∀ inside, .set inside ∈ zs → pairsBackslashes inside = true ∧ inside ≠ ['^'])
    (h : nextToken (zs.flatMap Symbol.written) = some (k, rest)) :
    ∃ before after, zs = before ++ after ∧ after.flatMap Symbol.written = rest ∧
      ∀ lo hi, k = .bounds lo hi → ∃ x ∈ before.getLast?, x.isAmong ['+', '*', '?', '}'] = true := by
  cases zs with
  | nil => cases h
  | cons z zs =>
    obtain ⟨hz, hzs⟩ := List.forall_mem_cons.1 hwell
    cases z with
    | char c =>
      change nextToken (c :: zs.flatMap Symbol.written) = _ at h
      by_cases hc : c = '{'
      · subst hc
        rw [nextToken] at h
        split at h
        · rename_i lo hi rest' hbounds
          cases h
          obtain ⟨ds, htext, hds⟩ := readBounds_eq_some hbounds
          have hclosed : zs.flatMap Symbol.written = (ds ++ ['}']) ++ rest := by simpa using htext
          obtain ⟨after, rfl, hafter⟩ := exists_eq_map_char (List.forall_mem_append.2 ⟨hds, by simp⟩) hclosed
          exact ⟨.char '{' :: ds.map .char ++ [.char '}'], after, by simp, hafter,
            fun _ _ _ => ⟨.char '}', List.getLast?_concat, rfl⟩⟩
        · cases h
          exact ⟨[.char '{'], zs, rfl, rfl, by simp⟩
      · obtain ⟨rfl, hk⟩ := nextToken_char_eq ⟨hz.1, hz.2, hc⟩ h
        exact ⟨[.char c], zs, rfl, rfl, fun lo hi hbounds => ⟨_, rfl, hk lo hi hbounds⟩⟩
    | escape c =>
      obtain ⟨hk, ds, htext, hds⟩ := readEscape_eq (Option.some.inj h)
      obtain ⟨after, rfl, hafter⟩ := exists_eq_map_char (fun d hd => plain_of_isAsciiDigit (hds d hd)) htext
      exact ⟨.escape c :: ds.map .char, after, rfl, hafter, fun lo hi hbounds => (hk lo hi hbounds).elim⟩
    | set inside =>
      have htext : (Symbol.set inside :: zs).flatMap Symbol.written =
          '[' :: (inside ++ ']' :: zs.flatMap Symbol.written) := by
        simp [Symbol.written]
      rw [htext, nextToken] at h
      obtain ⟨hpairs, hcaret⟩ := hsets inside List.mem_cons_self
      split at h
      · rename_i set rest' hread
        cases h
        exact ⟨[.set inside], zs, rfl, (readSet_append hz hpairs hcaret hread).symm, by simp⟩
      · cases h
        exact ⟨.set inside :: zs, [], (List.append_nil _).symm, rfl, by simp⟩

end

/-- The places of a pattern at which its reader begins a token, each as the text from there on. -/
inductive Visits (pattern : Text) : Text → Prop
  | first : Visits pattern pattern
  | next {t rest : Text} {k : Token} : Visits pattern t → nextToken t = some (k, rest) → Visits pattern rest

structure ConfinedAt (t : Text) : Prop where
  escapes : ∀ c rest, t = '\\' :: c :: rest → isEscapable c = true ∨ Text.isDigit c = true
  openings : ∀ rest, t = '(' :: rest → rest.head? ≠ some '?'
  quantifiers : ∀ lo hi rest, nextToken t = some (.bounds lo hi, rest) → ¬ rest.head?.any ['+', '*', '?', '{'].contains
  dollar : t.head? ≠ some '$'

section

variable {ys zs : List Symbol} {t : Text}

lemma exists_suffix_of_visits (hwell : ∀ x ∈ ys, x.WellFormed)
    (hsets : ∀ inside, .set inside ∈ ys → pairsBackslashes inside = true ∧ inside ≠ ['^'])
    (h : Visits (ys.flatMap Symbol.written) t) : ∃ zs, zs <:+ ys ∧ zs.flatMap Symbol.written = t := by
  induction h with
  | first => exact ⟨ys, List.suffix_rfl, rfl⟩
  | next _ hnext ih =>
    obtain ⟨zs, hzs, rfl⟩ := ih
    obtain ⟨before, after, rfl, hafter, -⟩ := nextToken_symbols (fun x hx => hwell x (hzs.subset hx))
      (fun inside hinside => hsets inside (hzs.subset hinside)) hnext
    exact ⟨after, (List.suffix_append before after).trans hzs, hafter⟩

lemma head?_of_flatMap_written {c : Char} (hc : c ≠ '\\' ∧ c ≠ '[')
    (h : (zs.flatMap Symbol.written).head? = some c) : zs.head? = some (.char c) := by
  rw [head?_flatMap_written] at h
  obtain ⟨z, hz, hfirst⟩ := Option.map_eq_some_iff.1 h
  cases z with
  | char d => rw [hz, ← hfirst, Symbol.first]
  | escape d => exact absurd hfirst.symm hc.1
  | set inside => exact absurd hfirst.symm hc.2

lemma Confined.suffix (h : Confined ys) (hz : zs <:+ ys) : Confined zs where
  escapes c hc := h.escapes c (hz.subset hc)
  openings := h.openings.suffix hz
  quantifiers := h.quantifiers.suffix hz
  dollar hc := h.dollar (hz.subset hc)
  sets inside hinside := h.sets inside (hz.subset hinside)

lemma Confined.confinedAt (hwell : ∀ x ∈ zs, x.WellFormed) (hcaret : .set ['^'] ∉ zs) (h : Confined zs) :
    ConfinedAt (zs.flatMap Symbol.written) where
  escapes c rest ht := by
    cases zs with
    | nil => cases ht
    | cons z zs =>
      cases z with
      | char d => exact absurd (List.cons.inj ht).1 (hwell _ List.mem_cons_self).1
      | escape d =>
        cases ht
        exact h.escapes c List.mem_cons_self
      | set inside => cases ht
  openings rest ht hhead := by
    obtain ⟨after, rfl, rfl⟩ := exists_eq_map_char (u := ['(']) (by simp) ht
    exact (List.isChain_cons.1 h.openings).1 _ (head?_of_flatMap_written (by decide) hhead) ⟨rfl, rfl⟩
  quantifiers lo hi rest hnext hany := by
    have hsets : ∀ inside, .set inside ∈ zs → pairsBackslashes inside = true ∧ inside ≠ ['^'] := by
      intro inside hinside
      refine ⟨h.sets inside hinside, ?_⟩
      rintro rfl
      exact hcaret hinside
    obtain ⟨before, after, rfl, rfl, hlast⟩ := nextToken_symbols hwell hsets hnext
    obtain ⟨x, hx, hamong⟩ := hlast lo hi rfl
    obtain ⟨c, hhead, hc⟩ := (Option.any_eq_true _ _).1 hany
    have hplain : c ≠ '\\' ∧ c ≠ '[' := by
      constructor <;> rintro rfl <;> cases hc
    exact (List.isChain_append.1 h.quantifiers).2.2 x hx _ (head?_of_flatMap_written hplain hhead) ⟨hamong, hc⟩
  dollar hhead := h.dollar (List.mem_of_mem_head? (head?_of_flatMap_written (by decide) hhead))

end

/-- The pattern of a regexp keeps to escapes, groups and quantifiers that the editor's regexps have, as long as a set
ends at the first closing bracket that is not right after its opening one. The reader of patterns ends sets there,
except that it takes `]` after `[^` for a member. -/
theorem pattern_confined {regexp pattern : Text} {extended : Bool} (h : convert regexp extended = .ok pattern) :
    ∃ ys, symbols pattern = some ys ∧ Confined ys ∧
      (.set ['^'] ∉ ys → ∀ t, Visits pattern t → ConfinedAt t) := by
  obtain ⟨t, ht⟩ : ∃ t, translate t = .ok pattern := by
    cases extended with
    | true => exact ⟨regexp, h⟩
    | false =>
      obtain ⟨t, -, ht⟩ := bind_eq_ok.1 h
      exact ⟨t, ht⟩
  obtain ⟨xs, -, hfit, hys⟩ := symbols_of_translate ht
  obtain ⟨hwell, rfl⟩ := symbols_eq_some_iff.1 hys
  have hconfined := confined_images hfit
  refine ⟨_, hys, hconfined, fun hcaret u hu => ?_⟩
  obtain ⟨zs, hzs, rfl⟩ := exists_suffix_of_visits hwell
    (fun inside hinside => ⟨hconfined.sets inside hinside, by rintro rfl; exact hcaret hinside⟩) hu
  exact (hconfined.suffix hzs).confinedAt (fun x hx => hwell x (hzs.subset hx)) fun hmem => hcaret (hzs.subset hmem)

def sampleRegexp : Text := ['\\', '(', '[', '^', 'a', ']', '\\', '|', '\\', 'n', '\\', ')', '*', '\\', '.', '$']

def samplePattern : Text := ['(', '[', '^', 'a', ']', '|', '\\', 'n', ')', '*', '\\', '.', '\\', 'Z']

theorem samplePattern_confined :
    convert sampleRegexp false = .ok samplePattern ∧
    ∃ ys, symbols samplePattern = some ys ∧ Confined ys ∧ .set ['^'] ∉ ys ∧
      ∀ t, Visits samplePattern t → ConfinedAt t := by
  have h : convert sampleRegexp false = .ok samplePattern := of_toOption (by decide +kernel)
  have hsymbols : symbols samplePattern = some [.char '(', .set ['^', 'a'], .char '|', .escape 'n', .char ')',
      .char '*', .escape '.', .escape 'Z'] := by
    decide +kernel
  obtain ⟨ys, hys, hconfined, hat⟩ := pattern_confined h
  obtain rfl := Option.some.inj (hsymbols.symm.trans hys)
  exact ⟨h, _, hys, hconfined, by decide, hat (by decide)⟩

-- `[^]a[](?=b)b]`, in the pattern language a set and a look ahead
def caretSets : Text := ['[', '^', ']', 'a', '[', ']', '(', '?', '=', 'b', ')', 'b', ']']

theorem caretSets_not_confined :
    convert caretSets true = .ok caretSets ∧ Visits caretSets ['(', '?', '=', 'b', ')', 'b', ']'] ∧
      ¬ ConfinedAt ['(', '?', '=', 'b', ')', 'b', ']'] := by
  have hset : nextToken caretSets = some (.item (.set ⟨true, [.single ']', .single 'a', .single '[']⟩),
      ['(', '?', '=', 'b', ')', 'b', ']']) := by
    decide +kernel
  exact ⟨of_toOption (by decide +kernel), .next .first hset, fun h => h.openings _ rfl rfl⟩

end StreamEditor.Dialect
