import StreamEditor.Proofs.Dialect.Spelling
import StreamEditor.Proofs.Dialect.Symbols

/-! What becomes of a caret. It stands for itself unless it begins a branch, but any parenthesis or bar before it counts
as the beginning of one. -/

namespace StreamEditor.Dialect

open Regex

def Symbol.flipped : Symbol → Symbol
  | char c => if isFlipped c then escape c else char c
  | escape c => if isFlipped c then char c else escape c
  | set inside => set inside

def Symbol.asExtended (extended : Bool) (x : Symbol) : Symbol := if extended then x else x.flipped

/-- The character for which a symbol of an extended regexp stands, where a caret or a dollar is no anchor. -/
def Symbol.literal? : Symbol → Option Char
  | char c => if ['.', '*', '+', '?', '(', ')', '{', '}', '|'].contains c then none else some c
  | escape c =>
    if c = 'n' then some '\n' else if c = 't' then some '\t' else if Text.isDigit c then none else some c
  | set _ => none

section

variable {x : Symbol} {xs : List Symbol}

lemma last_flipped (x : Symbol) : x.flipped.last = x.last := by
  cases x with
  | char c => by_cases hc : isFlipped c = true <;> simp [Symbol.flipped, hc, Symbol.last]
  | escape c => by_cases hc : isFlipped c = true <;> simp [Symbol.flipped, hc, Symbol.last]
  | set inside => rfl

lemma last_asExtended (extended : Bool) (x : Symbol) : (x.asExtended extended).last = x.last := by
  cases extended with
  | true => rfl
  | false => exact last_flipped x

lemma wellFormed_flipped (hx : x.WellFormed) : x.flipped.WellFormed := by
  cases x with
  | char c =>
    rw [Symbol.flipped]
    split
    · trivial
    · exact hx
  | escape c =>
    rw [Symbol.flipped]
    split
    · rename_i hc
      exact (ne_of_isFlipped hc).symm
    · trivial
  | set inside => exact hx

lemma flipAfter_written (hx : x.WellFormed) (hs : x ≠ .set ['^']) {rest u : Text}
    (h : flipAfter 0 (x.written ++ rest) = .ok u) :
    ∃ v, flipAfter 0 rest = .ok v ∧ u = x.flipped.written ++ v := by
  cases x with
  | char c =>
    change flipAfter 0 (c :: rest) = _ at h
    rw [flipAfter_char hx.2 hx.1] at h
    split at h <;> rename_i hc
    · obtain ⟨v, hv, rfl⟩ := map_eq_ok.1 h
      exact ⟨v, hv, by simp [Symbol.flipped, hc, Symbol.written]⟩
    · obtain ⟨v, hv, rfl⟩ := map_eq_ok.1 h
      exact ⟨v, hv, by simp [Symbol.flipped, hc, Symbol.written]⟩
  | escape c =>
    change flipAfter 0 ('\\' :: c :: rest) = _ at h
    rw [flipAfter] at h
    split at h <;> rename_i hc
    · obtain ⟨v, hv, rfl⟩ := map_eq_ok.1 h
      exact ⟨v, hv, by simp [Symbol.flipped, hc, Symbol.written]⟩
    · obtain ⟨v, hv, rfl⟩ := map_eq_ok.1 h
      exact ⟨v, hv, by simp [Symbol.flipped, hc, Symbol.written]⟩
  | set inside =>
    obtain ⟨hne, hclosing⟩ := hx
    obtain ⟨c, body, rfl⟩ := List.exists_cons_of_ne_nil hne
    have hset : BracketSet (Symbol.set (c :: body)).written := by
      by_cases hc : c = '^'
      · subst hc
        obtain ⟨d, body, rfl⟩ := List.exists_cons_of_ne_nil (l := body) (by simpa using hs)
        refine .negated ?_ fun hmem => hclosing (List.mem_cons_of_mem _ hmem)
        rintro rfl
        cases h
      · exact .plain hc hclosing
    rw [hset.flipAfter_append] at h
    obtain ⟨v, hv, rfl⟩ := map_eq_ok.1 h
    exact ⟨v, hv, rfl⟩

lemma symbols_of_flip {t u : Text} (h : Dialect.flip t = .ok u) (ht : symbols t = some xs) (hs : .set ['^'] ∉ xs) :
    symbols u = some (xs.map Symbol.flipped) := by
  obtain ⟨hwell, rfl⟩ := symbols_eq_some_iff.1 ht
  refine symbols_eq_some_iff.2 ⟨fun y hy => ?_, ?_⟩
  · obtain ⟨x, hx, rfl⟩ := List.mem_map.1 hy
    exact wellFormed_flipped (hwell x hx)
  · rw [Dialect.flip] at h
    clear ht
    induction xs generalizing u with
    | nil =>
      cases h
      rfl
    | cons x xs ih =>
      obtain ⟨hx, hxs⟩ := List.forall_mem_cons.1 hwell
      rw [List.mem_cons, not_or] at hs
      obtain ⟨v, hv, rfl⟩ := flipAfter_written hx (Ne.symm hs.1) h
      rw [List.map_cons, List.flatMap_cons, ih hs.2 hxs hv]

lemma symbols_of_convert {t p : Text} {extended : Bool} (h : convert t extended = .ok p) (ht : symbols t = some xs)
    (hs : extended = false → .set ['^'] ∉ xs) :
    symbols p = some (images none (xs.map (Symbol.asExtended extended))) := by
  cases extended with
  | true =>
    obtain ⟨ys, hys, -, hp⟩ := symbols_of_translate h
    obtain rfl : xs = ys := Option.some.inj (ht.symm.trans hys)
    rw [hp, show Symbol.asExtended true = id from rfl, List.map_id]
  | false =>
    obtain ⟨u, hu, hp⟩ := bind_eq_ok.1 h
    obtain ⟨ys, hys, -, hp⟩ := symbols_of_translate hp
    obtain rfl : xs.map Symbol.flipped = ys := Option.some.inj ((symbols_of_flip hu ht (hs rfl)).symm.trans hys)
    exact hp

lemma length_images (previous : Option Symbol) (xs : List Symbol) : (images previous xs).length = xs.length := by
  induction xs generalizing previous with
  | nil => rfl
  | cons x xs ih => exact congrArg (· + 1) (ih (some x))

lemma getLast?_cons_or (x : Symbol) (xs : List Symbol) (previous : Option Symbol) :
    (x :: xs).getLast?.or previous = xs.getLast?.or (some x) := by
  rw [List.getLast?_cons]
  cases xs.getLast? <;> rfl

lemma getElem?_images (previous : Option Symbol) (before after : List Symbol) (x : Symbol) :
    (images previous (before ++ x :: after))[before.length]? =
      some (x.image (before.getLast?.or previous) after.head?) := by
  induction before generalizing previous with
  | nil => rfl
  | cons y before ih =>
    rw [List.cons_append, images, List.length_cons, List.getElem?_cons_succ, ih, getLast?_cons_or]

lemma all_last_asExtended (extended : Bool) (before : List Symbol) (f : Char → Bool) :
    (before.map (Symbol.asExtended extended)).getLast?.all (fun x => f x.last) =
      before.getLast?.all fun x => f x.last := by
  rw [List.getLast?_map]
  cases before.getLast? with
  | none => rfl
  | some x => simp [last_asExtended]

lemma asExtended_caret (extended : Bool) : (Symbol.char '^').asExtended extended = .char '^' := by
  cases extended <;> rfl

lemma caret_of_convert {t p : Text} {extended : Bool} {before after : List Symbol} (h : convert t extended = .ok p)
    (ht : symbols t = some (before ++ .char '^' :: after))
    (hs : extended = false → .set ['^'] ∉ before ++ .char '^' :: after) :
    ∃ ys, symbols p = some ys ∧ ys.length = (before ++ .char '^' :: after).length ∧
      ys[before.length]? = some (if before.getLast?.all fun x => x.last = '(' || x.last = '|' then .char '^'
        else .escape '^') := by
  refine ⟨_, symbols_of_convert h ht hs, by rw [length_images, List.length_map], ?_⟩
  have himage := getElem?_images none (before.map (Symbol.asExtended extended))
    (after.map (Symbol.asExtended extended)) (.char '^')
  rw [List.length_map, Option.or_none] at himage
  rw [List.map_append, List.map_cons, asExtended_caret, himage, Symbol.image, if_pos rfl,
    all_last_asExtended extended before fun c => c = '(' || c = '|']

lemma asExtended_eq_caret {extended : Bool} (h : x.asExtended extended = .char '^') : x = .char '^' := by
  cases extended with
  | true => exact h
  | false =>
    change x.flipped = _ at h
    cases x with
    | char c =>
      rw [Symbol.flipped] at h
      split at h
      · cases h
      · exact h
    | escape c =>
      rw [Symbol.flipped] at h
      split at h
      · cases h
        contradiction
      · cases h
    | set inside => cases h

lemma wellFormed_asExtended (extended : Bool) (hx : x.WellFormed) : (x.asExtended extended).WellFormed := by
  cases extended with
  | true => exact hx
  | false => exact wellFormed_flipped hx

lemma flips_written (hx : x.WellFormed) (hset : ∀ inside, x ≠ .set inside) {t t' : Text} (h : Flips t t') :
    Flips (x.written ++ t) (x.flipped.written ++ t') := by
  cases x with
  | char c =>
    by_cases hc : isFlipped c = true
    · simpa [Symbol.flipped, hc, Symbol.written] using Flips.bare hc h
    · rw [Bool.not_eq_true] at hc
      simpa [Symbol.flipped, hc, Symbol.written] using Flips.char hc hx.1 hx.2 h
  | escape c =>
    by_cases hc : isFlipped c = true
    · simpa [Symbol.flipped, hc, Symbol.written] using Flips.escaped hc h
    · rw [Bool.not_eq_true] at hc
      simpa [Symbol.flipped, hc, Symbol.written] using Flips.kept hc h
  | set inside => exact (hset inside rfl).elim

lemma translateFrom_inner_caret (whole : Text) {c : Char} (h : c ≠ '(' ∧ c ≠ '|') (rest : Text) :
    translateFrom whole (some c) ('^' :: rest) = (translateFrom whole (some '^') rest).map (['\\', '^'] ++ ·) := by
  rw [translateFrom]
  simp [h]

lemma translateFrom_inner_dollar (whole : Text) (previous : Option Char) {c : Char} (h : c ≠ '|' ∧ c ≠ ')')
    (rest : Text) :
    translateFrom whole previous ('$' :: c :: rest) =
      (translateFrom whole (some '$') (c :: rest)).map (['\\', '$'] ++ ·) := by
  rw [translateFrom]
  simp [h]

lemma spells_of_literal {c : Char} (hx : x.WellFormed) (hc : x.literal? = some c) (hcaret : x ≠ .char '^')
    (hdollar : x ≠ .char '$') : ∃ b, Spells x.written b [c] := by
  cases x with
  | char d =>
    rw [Symbol.literal?] at hc
    split at hc
    · cases hc
    · rename_i hd
      cases hc
      rw [Symbol.WellFormed] at hx
      simp only [ne_eq, Symbol.char.injEq] at hcaret hdollar
      simp only [List.contains_eq_mem, List.mem_cons, List.not_mem_nil, or_false, decide_eq_true_eq, not_or] at hd
      exact ⟨_, spells_char (by simp [isPlain]; grind) (by simp [Regex.isOperator]; grind)⟩
  | escape d =>
    rw [Symbol.literal?] at hc
    split at hc
    · rename_i hd
      cases hc
      exact ⟨_, hd ▸ spells_newline⟩
    · split at hc
      · rename_i hd
        cases hc
        exact ⟨_, hd ▸ spells_tab⟩
      · rename_i hn ht
        split at hc
        · cases hc
        · rename_i hd
          cases hc
          cases hk : keepsEscape c with
          | true =>
            have ha := Text.of_contains (p := fun c => c = 'n' || c = 't' || !c.isAlphanum) (by decide) hk
            exact ⟨_, spells_escape hk (by simpa [hn, ht] using ha)⟩
          | false => exact ⟨_, spells_unescape hk (by simpa using hd)⟩
  | set inside => cases hc

lemma getLast?_written (x : Symbol) : x.written.getLast? = some x.last := by
  cases x with
  | char c => rfl
  | escape c => rfl
  | set inside => exact List.getLast?_concat (l := '[' :: inside)

lemma exists_spelled {c : Char} (hx : x.WellFormed) (hc : x.literal? = some c) (previous : Option Char)
    (hcaret : x = .char '^' → ∃ p, previous = some p ∧ p ≠ '(' ∧ p ≠ '|') :
    ∃ b, (∀ whole rest, translateFrom whole previous (x.written ++ '^' :: rest) =
        (translateFrom whole (some x.last) ('^' :: rest)).map (b ++ ·)) ∧
      ∀ rest, tokens (b ++ rest) = .item (.char c) :: tokens rest := by
  by_cases hfirst : x = .char '^'
  · obtain ⟨p, rfl, hp⟩ := hcaret hfirst
    subst hfirst
    cases hc
    exact ⟨['\\', '^'], fun whole rest => translateFrom_inner_caret whole hp _,
      fun rest => tokens_cons (nextToken_escape (by decide) rest)⟩
  · by_cases hlast : x = .char '$'
    · subst hlast
      cases hc
      exact ⟨['\\', '$'], fun whole rest => translateFrom_inner_dollar whole previous (by decide) rest,
        fun rest => tokens_cons (nextToken_escape (by decide) rest)⟩
    · obtain ⟨b, hb⟩ := spells_of_literal hx hc hfirst hlast
      refine ⟨b, fun whole rest => ?_, hb.tokens_eq⟩
      rw [hb.translated, getLast?_written, Option.some_or]

lemma last_iff_of_literal {c : Char} (hc : x.literal? = some c) :
    x.last = '(' ∨ x.last = '|' ↔ c = '(' ∨ c = '|' := by
  cases x with
  | char d =>
    rw [Symbol.literal?] at hc
    split at hc
    · cases hc
    · cases hc
      rfl
  | escape d =>
    rw [Symbol.literal?, Symbol.last] at *
    grind
  | set inside => cases hc

lemma exists_caret (last : Char) :
    ∃ a, (∀ whole rest, translateFrom whole (some last) ('^' :: rest) =
        (translateFrom whole (some '^') rest).map (a ++ ·)) ∧
      ∀ rest, tokens (a ++ rest) = .item (if last = '(' ∨ last = '|' then .start else .char '^') :: tokens rest := by
  by_cases h : last = '(' ∨ last = '|'
  · refine ⟨['^'], fun whole rest => translateFrom_caret whole _ (by simpa using h) rest, fun rest => ?_⟩
    rw [if_pos h]
    exact tokens_cons rfl
  · refine ⟨['\\', '^'], fun whole rest => translateFrom_inner_caret whole (not_or.1 h) rest, fun rest => ?_⟩
    rw [if_neg h]
    exact tokens_cons (nextToken_escape (by decide) rest)

lemma exists_parse_caret {u v : Text} {c : Char} (hu : ∀ d ∈ u, Atom.isSpecial d = false)
    (hv : ∀ d ∈ v, Atom.isSpecial d = false) (hx : x.WellFormed) (hc : x.literal? = some c)
    (hcaret : x = .char '^' → u ≠ []) :
    ∃ p, translate (u ++ (x.written ++ '^' :: v)) = .ok p ∧
      Regex.parse p = .ok (ofItems ((u ++ [c]).map .char ++
        (if c = '(' ∨ c = '|' then .start else .char '^') :: v.map .char)) := by
  have hbefore : x = .char '^' → ∃ p, u.getLast? = some p ∧ p ≠ '(' ∧ p ≠ '|' := by
    intro h
    obtain ⟨p, hp⟩ := Option.ne_none_iff_exists'.1 (mt List.getLast?_eq_none_iff.1 (hcaret h))
    refine ⟨p, hp, ?_, ?_⟩ <;> rintro rfl <;> cases hu _ (List.mem_of_getLast? hp)
  obtain ⟨b, hb, hbtokens⟩ := exists_spelled hx hc u.getLast? hbefore
  obtain ⟨a, ha, hatokens⟩ := exists_caret x.last
  have hspell := spells_ordinary hu
  have hspell' := spells_ordinary hv
  refine ⟨u ++ (b ++ (a ++ v)), ?_, parse_items ?_⟩
  · have hrest (whole : Text) : translateFrom whole (some '^') v = .ok v := by
      have h := hspell'.translated whole (some '^') []
      rwa [List.append_nil, translateFrom_nil, Except.map, List.append_nil] at h
    rw [translate, hspell.translated, Option.or_none, hb, ha, hrest]
    rfl
  · have hrest := hspell'.tokens_eq []
    rw [List.append_nil, tokens_nil, List.append_nil] at hrest
    rw [hspell.tokens_eq, hbtokens, hatokens, hrest]
    simp only [last_iff_of_literal hc]
    simp [Function.comp_def]

lemma search_caret {u v : Text} {extended : Bool} {c : Char} (hu : ∀ d ∈ u, Atom.isSpecial d = false)
    (hv : ∀ d ∈ v, Atom.isSpecial d = false) (hx : x.WellFormed) (hc : (x.asExtended extended).literal? = some c)
    (hcaret : x = .char '^' → u ≠ []) :
    ∃ r, Regexp.ofScript false extended false (u ++ (x.written ++ '^' :: v)) = .ok (some r) ∧
      ∀ s, r.search s = .ok (decide (c ≠ '(' ∧ c ≠ '|' ∧ u ++ c :: '^' :: v <:+: s)) := by
  obtain ⟨p, hp, hparse⟩ := exists_parse_caret hu hv (wellFormed_asExtended extended hx) hc
    fun h => hcaret (asExtended_eq_caret h)
  have hconvert : convert (u ++ (x.written ++ '^' :: v)) extended = .ok p := by
    cases extended with
    | true => exact hp
    | false =>
      have hset : ∀ inside, x ≠ .set inside := by
        rintro inside rfl
        cases hc
      rw [convert_of_flips (flips_ordinary hu (flips_written hx hset
        (.char rfl (by decide) (by decide) (flips_ordinary_self hv))))]
      exact hp
  refine ⟨_, ofScript_eq (by simp) hconvert hparse false, fun s => ?_⟩
  by_cases h : c = '(' ∨ c = '|'
  · have hne : ¬ (c ≠ '(' ∧ c ≠ '|' ∧ u ++ c :: '^' :: v <:+: s) := by tauto
    have hnone := findFrom_eq_none (matchAt_inner_start (w := u ++ [c]) (by simp) (v.map .char)) s 0 false
    rw [if_pos h, Regexp.search, Regexp.regex, decide_eq_false hne, Except.map, find?, hnone]
    rfl
  · have hitems : (u ++ [c]).map Regex.char ++ .char '^' :: v.map .char = (u ++ c :: '^' :: v).map .char := by simp
    rw [if_neg h, hitems, ← literal, search_literal (by simp)]
    simp [not_or.1 h]

end

/-- A caret keeps its meaning exactly if it comes first or after an opening parenthesis or a bar. Whether these are
operators does not matter, so that it does not stand for itself after a parenthesis or bar that stands for itself:
between two words, a caret after a character is found as the text it looks like if and only if the character is neither
of the two. -/
theorem inner_caret_found_iff (extended : Bool) :
    (∀ t p before after, convert t extended = .ok p → symbols t = some (before ++ .char '^' :: after) →
      (extended = false → .set ['^'] ∉ before ++ .char '^' :: after) →
      ∃ ys, symbols p = some ys ∧ ys.length = (before ++ .char '^' :: after).length ∧
        ys[before.length]? = some (if before.getLast?.all fun x => x.last = '(' || x.last = '|' then .char '^'
          else .escape '^')) ∧
    ∀ (u v : Text) (x : Symbol) (c : Char), (∀ d ∈ u ++ v, Atom.isSpecial d = false) → x.WellFormed →
      (x.asExtended extended).literal? = some c → (x = .char '^' → u ≠ []) →
      ∃ r, Regexp.ofScript false extended false (u ++ x.written ++ '^' :: v) = .ok (some r) ∧
        ∀ s, r.search s = .ok (decide (c ≠ '(' ∧ c ≠ '|' ∧ u ++ c :: '^' :: v <:+: s)) := by
  refine ⟨fun t p before after => caret_of_convert, fun u v x c huv hx hc hcaret => ?_⟩
  obtain ⟨hu, hv⟩ := List.forall_mem_append.1 huv
  rw [List.append_assoc]
  exact search_caret hu hv hx hc hcaret

def sampleCarets : Text := ['a', '^', '\\', '|', '^', 'b']

theorem sampleCarets_found :
    (∃ p, convert sampleCarets false = .ok p ∧
      symbols sampleCarets = some ([.char 'a'] ++ .char '^' :: [.escape '|', .char '^', .char 'b']) ∧
      ∃ ys, symbols p = some ys ∧ ys.length = 5 ∧ ys[1]? = some (.escape '^')) ∧
    ∃ r, Regexp.ofScript false false false ['a', '+', '^', 'b'] = .ok (some r) ∧
      ∀ s, r.search s = .ok (decide ('+' ≠ '(' ∧ '+' ≠ '|' ∧ ['a', '+', '^', 'b'] <:+: s)) := by
  have hconvert : convert sampleCarets false = .ok ['a', '\\', '^', '|', '^', 'b'] := of_toOption (by decide +kernel)
  have hsymbols :
      symbols sampleCarets = some ([.char 'a'] ++ .char '^' :: [.escape '|', .char '^', .char 'b']) := by
    decide +kernel
  obtain ⟨hcaret, hfound⟩ := inner_caret_found_iff false
  refine ⟨⟨_, hconvert, hsymbols, hcaret _ _ _ _ hconvert hsymbols fun _ => by decide⟩, ?_⟩
  exact hfound ['a'] ['b'] (.char '+') '+' (by simp [Atom.isSpecial]) (by simp [Symbol.WellFormed]) (by decide)
    (by decide)

theorem caret_after_parenthesis_not_found :
    ∃ r, Regexp.ofScript false false false ['a', '(', '^', 'b'] = .ok (some r) ∧
      r.search ['a', '(', '^', 'b'] = .ok false := by
  have hliteral : ((Symbol.char '(').asExtended false).literal? = some '(' := by decide
  obtain ⟨r, hr, hsearch⟩ := search_caret (u := ['a']) (v := ['b']) (by simp [Atom.isSpecial])
    (by simp [Atom.isSpecial]) (by simp [Symbol.WellFormed]) hliteral (by decide)
  exact ⟨r, hr, hsearch _⟩

end StreamEditor.Dialect
