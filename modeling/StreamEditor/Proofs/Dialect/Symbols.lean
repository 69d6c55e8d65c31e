import Mathlib.Data.List.Chain
import StreamEditor.Proofs.Dialect.Translation

/-! Regexps and patterns as lists of symbols. The translation takes an extended regexp symbol by symbol to a pattern. -/

namespace StreamEditor.Dialect

inductive Symbol where
  | char (c : Char)
  | escape (c : Char)
  | set (inside : Text)
  deriving DecidableEq, Repr

namespace Symbol

def written : Symbol → Text
  | char c => [c]
  | escape c => ['\\', c]
  | set inside => '[' :: (inside ++ [']'])

def WellFormed : Symbol → Prop
  | char c => c ≠ '\\' ∧ c ≠ '['
  | escape _ => True
  | set inside => inside ≠ [] ∧ ']' ∉ inside.tail

def first : Symbol → Char
  | char c => c
  | escape _ => '\\'
  | set _ => '['

def last : Symbol → Char
  | char c | escape c => c
  | set _ => ']'

def isAmong (cs : Text) : Symbol → Bool
  | char c => cs.contains c
  | _ => false

end Symbol

/-- The symbols of a text, read from left to right. A text that ends in a lone backslash or inside a set has none. -/
def symbols (t : Text) : Option (List Symbol) :=
  match t with
  | [] => some []
  | '\\' :: c :: rest => (symbols rest).map (.escape c :: ·)
  | '[' :: c :: rest =>
    match rest.findIdx? (· = ']') with
    | none => none
    | some k => (symbols (rest.drop (k + 1))).map (.set (c :: rest.take k) :: ·)
  | c :: rest => if c = '\\' || c = '[' then none else (symbols rest).map (.char c :: ·)
termination_by t.length
decreasing_by all_goals simp only [List.length_drop, List.length_cons]; omega

section

variable {x : Symbol} {xs : List Symbol}

lemma symbols_written (hx : x.WellFormed) (t : Text) : symbols (x.written ++ t) = (symbols t).map (x :: ·) := by
  cases x with
  | char c =>
    obtain ⟨hs, hb⟩ := hx
    change symbols (c :: t) = _
    rw [symbols, if_neg (by simp [hs, hb])]
    all_goals simp_all
  | escape c =>
    change symbols ('\\' :: c :: t) = _
    rw [symbols]
  | set inside =>
    obtain ⟨hne, hclosing⟩ := hx
    obtain ⟨c, body, rfl⟩ := List.exists_cons_of_ne_nil hne
    have htext : (Symbol.set (c :: body)).written ++ t = '[' :: c :: (body ++ ']' :: t) := by simp [Symbol.written]
    rw [List.tail_cons] at hclosing
    rw [htext, symbols, findIdx?_closing hclosing]
    simp

lemma symbols_flatMap (h : ∀ x ∈ xs, x.WellFormed) : symbols (xs.flatMap Symbol.written) = some xs := by
  induction xs with
  | nil => rw [List.flatMap_nil, symbols]
  | cons x xs ih =>
    obtain ⟨hx, hxs⟩ := List.forall_mem_cons.1 h
    rw [List.flatMap_cons, symbols_written hx, ih hxs]
    rfl

lemma of_symbols {t : Text} (h : symbols t = some xs) :
    (∀ x ∈ xs, x.WellFormed) ∧ xs.flatMap Symbol.written = t := by
  fun_induction symbols t generalizing xs with
  | case1 =>
    cases h
    exact ⟨List.forall_mem_nil _, rfl⟩
  | case2 c rest ih =>
    obtain ⟨ys, hys, rfl⟩ := Option.map_eq_some_iff.1 h
    obtain ⟨hwell, rfl⟩ := ih hys
    exact ⟨List.forall_mem_cons.2 ⟨trivial, hwell⟩, rfl⟩
  | case3 => cases h
  | case4 c rest k hk ih =>
    obtain ⟨ys, hys, rfl⟩ := Option.map_eq_some_iff.1 h
    obtain ⟨hwell, htext⟩ := ih hys
    obtain ⟨hbody, htake⟩ := take_of_findIdx?_closing hk
    refine ⟨List.forall_mem_cons.2 ⟨⟨List.cons_ne_nil _ _, hbody⟩, hwell⟩, ?_⟩
    calc
      _ = '[' :: c :: (rest.take k ++ [']'] ++ rest.drop (k + 1)) := by simp [htext, Symbol.written]
      _ = _ := by rw [← htake, List.take_append_drop]
  | case5 => cases h
  | case6 c rest _ _ hc ih =>
    obtain ⟨ys, hys, rfl⟩ := Option.map_eq_some_iff.1 h
    obtain ⟨hwell, rfl⟩ := ih hys
    exact ⟨List.forall_mem_cons.2 ⟨by simpa [Symbol.WellFormed] using hc, hwell⟩, rfl⟩

lemma symbols_eq_some_iff {t : Text} :
    symbols t = some xs ↔ (∀ x ∈ xs, x.WellFormed) ∧ xs.flatMap Symbol.written = t := by
  constructor
  · exact of_symbols
  · rintro ⟨hwell, rfl⟩
    exact symbols_flatMap hwell

end

namespace Symbol

def isReference : Symbol → Bool
  | escape c => Text.isDigit c
  | _ => false

/-- The symbol of the pattern for a symbol of an extended regexp between its neighbours. A caret begins a branch at the
start and after a parenthesis or a bar, whether or not that is escaped, and a digit after a reference is set apart. -/
def image (previous next : Option Symbol) : Symbol → Symbol
  | char c =>
    if c = '^' then if previous.all fun x => x.last = '(' || x.last = '|' then char '^' else escape '^'
    else if c = '$' then if next.all (isAmong ['|', ')']) then escape 'Z' else escape '$'
    else if previous.any isReference && Text.isDigit c then set [c]
    else char c
  | escape c => if keepsEscape c || Text.isDigit c then escape c else char c
  | set inside => set (doubleBackslashes inside)

def mayPrecede (x y : Symbol) : Bool :=
  !(x.isAmong ['+', '*', '?', '}'] && y.isAmong ['+', '*', '?', '{']) && !(x.isAmong ['('] && y.isAmong ['?'])

end Symbol

def images (previous : Option Symbol) : List Symbol → List Symbol
  | [] => []
  | x :: xs => x.image previous xs.head? :: images (some x) xs

abbrev Fitting (xs : List Symbol) : Prop := xs.IsChain fun x y => x.mayPrecede y = true

def Translates (previous : Option Symbol) (t p : Text) : Prop :=
  ∃ xs, (∀ x ∈ xs, x.WellFormed) ∧ xs.flatMap Symbol.written = t ∧ Fitting xs ∧
    (images previous xs).flatMap Symbol.written = p

section

variable {b : Option Symbol} {x y : Symbol} {t p : Text}

lemma head?_flatMap_written (xs : List Symbol) : (xs.flatMap Symbol.written).head? = xs.head?.map Symbol.first := by
  cases xs with
  | nil => rfl
  | cons x xs => cases x <;> rfl

lemma translates_nil (b : Option Symbol) : Translates b [] [] :=
  ⟨[], List.forall_mem_nil _, rfl, .nil, rfl⟩

lemma Translates.cons (h : Translates (some x) t p) (hx : x.WellFormed)
    (hnext : ∀ next : Option Symbol, next.map Symbol.first = t.head? →
      (∀ z ∈ next, x.mayPrecede z = true) ∧ x.image b next = y) :
    Translates b (x.written ++ t) (y.written ++ p) := by
  obtain ⟨xs, hwell, rfl, hfit, rfl⟩ := h
  obtain ⟨hhead, himage⟩ := hnext xs.head? (head?_flatMap_written xs).symm
  refine ⟨x :: xs, List.forall_mem_cons.2 ⟨hx, hwell⟩, List.flatMap_cons, List.isChain_cons.2 ⟨hhead, hfit⟩, ?_⟩
  rw [images, himage, List.flatMap_cons]

lemma any_isAmong {l : Text} (hs : l.contains '\\' = false) (hb : l.contains '[' = false) (next : Option Symbol) :
    next.any (Symbol.isAmong l) = (next.map Symbol.first).any l.contains := by
  rcases next with _ | _ | _ | _
  · rfl
  · rfl
  · exact hs.symm
  · exact hb.symm

lemma all_isAmong {l : Text} (hs : l.contains '\\' = false) (hb : l.contains '[' = false) (next : Option Symbol) :
    next.all (Symbol.isAmong l) = (next.map Symbol.first).all l.contains := by
  rcases next with _ | _ | _ | _
  · rfl
  · rfl
  · exact hs.symm
  · exact hb.symm

lemma mayPrecede_of_not_isAmong (hx : x.isAmong ['+', '*', '?', '}', '('] = false) (y : Symbol) :
    x.mayPrecede y = true := by
  cases x with
  | char c =>
    simp [Symbol.isAmong] at hx
    simp [Symbol.mayPrecede, Symbol.isAmong, hx]
  | _ => simp [Symbol.mayPrecede, Symbol.isAmong]

variable {c : Char}

lemma Translates.plain (h : Translates (some (.char c)) t p) (hc : isPlain c = true)
    (hd : b.any Symbol.isReference = true → Text.isDigit c = false) : Translates b (c :: t) (c :: p) := by
  simp [isPlain] at hc
  refine h.cons (x := .char c) (y := .char c) ⟨hc.1, hc.2.1⟩ fun next _ => ⟨fun z _ => ?_, ?_⟩
  · exact mayPrecede_of_not_isAmong (by simp [Symbol.isAmong, hc]) z
  · have hapart : (b.any Symbol.isReference && Text.isDigit c) = false := by
      cases hr : b.any Symbol.isReference with
      | false => rfl
      | true => exact hd hr
    simp [Symbol.image, hc, hapart]

lemma Translates.caret (h : Translates (some (.char '^')) t p) :
    Translates b ('^' :: t)
      ((if b.all fun x => x.last = '(' || x.last = '|' then ['^'] else ['\\', '^']) ++ p) := by
  have hcons := h.cons (b := b) (x := .char '^') (y := .image b none (.char '^'))
    ⟨by decide, by decide⟩
    fun next _ => ⟨fun z _ => mayPrecede_of_not_isAmong rfl z, rfl⟩
  rw [Symbol.image, if_pos rfl] at hcons
  split <;> simp_all [Symbol.written]

lemma Translates.dollar (h : Translates (some (.char '$')) t p) :
    Translates b ('$' :: t) ((if t.head?.all ['|', ')'].contains then ['\\', 'Z'] else ['\\', '$']) ++ p) := by
  have hcons := h.cons (b := b) (x := .char '$')
    (y := if t.head?.all ['|', ')'].contains then .escape 'Z' else .escape '$') ⟨by decide, by decide⟩
    fun next hnext => ⟨fun z _ => mayPrecede_of_not_isAmong rfl z, by
      rw [← hnext, ← all_isAmong rfl rfl]
      rfl⟩
  split <;> simp_all [Symbol.written]

lemma Translates.quantifier (h : Translates (some (.char c)) t p) (hc : ['+', '*', '?', '}'].contains c = true)
    (ht : t.head?.any ['+', '*', '?', '{'].contains = false) : Translates b (c :: t) (c :: p) := by
  have hne : c ≠ '\\' ∧ c ≠ '[' ∧ c ≠ '^' ∧ c ≠ '$' ∧ c ≠ '(' ∧ Text.isDigit c = false := by
    simp only [List.contains_cons, List.contains_nil, Bool.or_false, Bool.or_eq_true, beq_iff_eq] at hc
    rcases hc with rfl | rfl | rfl | rfl <;> decide
  refine h.cons (x := .char c) (y := .char c) ⟨hne.1, hne.2.1⟩ fun next hnext => ⟨fun z hz => ?_, ?_⟩
  · have hquantifier : z.isAmong ['+', '*', '?', '{'] = false := by
      rw [← hnext, ← any_isAmong rfl rfl, hz] at ht
      exact ht
    have hopening : (Symbol.char c).isAmong ['('] = false := by simp [Symbol.isAmong, hne]
    simp [Symbol.mayPrecede, hquantifier, hopening]
  · simp [Symbol.image, hne]

lemma Translates.opening (h : Translates (some (.char '(')) t p) (ht : t.head? ≠ some '?') :
    Translates b ('(' :: t) ('(' :: p) := by
  refine h.cons (x := .char '(') (y := .char '(') ⟨by decide, by decide⟩ fun next hnext => ⟨fun z hz => ?_, ?_⟩
  · have hmark : z.isAmong ['?'] = false := by
      have hany := any_isAmong (l := ['?']) rfl rfl next
      rw [hnext, hz] at hany
      refine hany.trans ?_
      cases hhead : t.head? with
      | none => rfl
      | some c => simpa [hhead] using ht
    have hquantifier : (Symbol.char '(').isAmong ['+', '*', '?', '}'] = false := rfl
    simp [Symbol.mayPrecede, hmark, hquantifier]
  · have hdigit : Text.isDigit '(' = false := by decide
    simp [Symbol.image, hdigit]

lemma Translates.escape (h : Translates (some (.escape c)) t p) :
    Translates b ('\\' :: c :: t)
      ((if keepsEscape c || Text.isDigit c then ['\\', c] else [c]) ++ p) := by
  have hcons := h.cons (b := b) (x := .escape c)
    (y := if keepsEscape c || Text.isDigit c then .escape c else .char c) trivial
    fun next _ => ⟨fun z _ => mayPrecede_of_not_isAmong rfl z, rfl⟩
  split <;> simp_all [Symbol.written]

lemma Translates.apart (h : Translates (some (.char c)) t p) (hp : b.any Symbol.isReference = true)
    (hc : Text.isDigit c = true) : Translates b (c :: t) ('[' :: c :: ']' :: p) := by
  have hplain : isPlain c = true := by
    rw [isPlain, Text.contains_eq_false (p := fun d => !Text.isDigit d) (by decide) (by simp [hc])]
    rfl
  simp [isPlain] at hplain
  refine h.cons (x := .char c) (y := .set [c]) ⟨hplain.1, hplain.2.1⟩ fun next _ => ⟨fun z _ => ?_, ?_⟩
  · exact mayPrecede_of_not_isAmong (by simp [Symbol.isAmong, hplain]) z
  · simp [Symbol.image, hplain, hp, hc]

lemma Translates.set {inside : Text} (h : Translates (some (.set inside)) t p) (hwell : (Symbol.set inside).WellFormed) :
    Translates b ('[' :: (inside ++ [']']) ++ t) ('[' :: (doubleBackslashes inside ++ [']']) ++ p) :=
  h.cons hwell fun _ _ => ⟨fun z _ => mayPrecede_of_not_isAmong rfl z, rfl⟩

lemma convertEscape_eq_ok {rest u : Text} {n : Nat} (h : convertEscape ('\\' :: rest) 0 = .ok (n, u)) :
    ∃ c rest', rest = c :: rest' ∧
      ((Text.isDigit c = true ∧ ∃ d rest'', rest' = d :: rest'' ∧ Text.isDigit d = true ∧ n = 3 ∧
          u = ['\\', c, '[', d, ']']) ∨
        ((Text.isDigit c = true → rest'.head?.any Text.isDigit = false) ∧ n = 2 ∧
          u = if keepsEscape c || Text.isDigit c then ['\\', c] else [c])) := by
  rcases rest with _ | ⟨c, rest⟩
  · cases h
  · refine ⟨c, rest, rfl, ?_⟩
    rw [convertEscape, List.drop_zero] at h
    dsimp only at h
    split at h <;> rename_i hkeeps
    · cases h
      have hdigit : Text.isDigit c = false := by
        simpa using Text.of_contains (p := fun d => !Text.isDigit d) (by decide) hkeeps
      exact .inr ⟨by simp [hdigit], rfl, by simp [hkeeps]⟩
    · split at h <;> rename_i hdigit
      · rcases rest with _ | ⟨d, rest⟩
        · cases h
          exact .inr ⟨fun _ => rfl, rfl, by simp [hdigit]⟩
        · by_cases hd : Text.isDigit d = true
          · simp only [convertReference, List.drop_zero, hd, if_true] at h
            cases h
            exact .inl ⟨hdigit, d, rest, rfl, hd, rfl, rfl⟩
          · simp only [convertReference, List.drop_zero, hd] at h
            cases h
            exact .inr ⟨fun _ => by simpa using hd, rfl, by simp [hdigit]⟩
      · cases h
        exact .inr ⟨fun h => absurd h hdigit, rfl, by simp [hkeeps, hdigit]⟩

lemma doubleBackslashes_closing (t : Text) : doubleBackslashes (t ++ [']']) = doubleBackslashes t ++ [']'] := by
  induction t with
  | nil => rfl
  | cons c t ih =>
    have hhead : (t ++ [']']).head? ≠ some 'n' ∧ (t ++ [']']).head? ≠ some 't' ↔
        t.head? ≠ some 'n' ∧ t.head? ≠ some 't' := by
      cases t <;> simp
    rw [List.cons_append, doubleBackslashes, doubleBackslashes, ih]
    simp only [hhead]
    split <;> rfl

lemma convertSet_eq_some {rest u : Text} {n : Nat} (h : convertSet ('[' :: rest) 0 = some (n, u)) :
    ∃ inside t, rest = inside ++ ']' :: t ∧ (Symbol.set inside).WellFormed ∧ n = inside.length + 2 ∧
      u = '[' :: (doubleBackslashes inside ++ [']']) := by
  rcases rest with _ | ⟨c, rest⟩
  · cases h
  · rw [convertSet, List.drop_succ_cons, List.drop_zero, setBody_true, Option.map_map] at h
    obtain ⟨k, hk, hu⟩ := Option.map_eq_some_iff.1 h
    obtain ⟨hbody, htake⟩ := take_of_findIdx?_closing hk
    have hlt : k < rest.length := (List.findIdx?_eq_some_iff_getElem.1 hk).1
    obtain ⟨rfl, rfl⟩ := Prod.mk.inj hu
    refine ⟨c :: rest.take k, rest.drop (k + 1), ?_, ⟨List.cons_ne_nil _ _, hbody⟩, ?_, ?_⟩
    · rw [List.append_cons, List.cons_append, List.cons_append, ← htake, List.take_append_drop]
    · simp only [List.length_cons, List.length_take]
      omega
    · rw [← doubleBackslashes_closing, List.cons_append, ← htake]

lemma all_last (b : Option Symbol) :
    b.all (fun x => x.last = '(' || x.last = '|') =
      !(b.map Symbol.last).any fun p => p ≠ '(' && p ≠ '|' := by
  cases b with
  | none => rfl
  | some x => by_cases hx : x.last = '(' <;> simp [hx]

lemma translates_of_translateFrom {whole : Text} {q : Option Char} (h : translateFrom whole q t = .ok p)
    (hq : b.map Symbol.last = q)
    (hd : b.any Symbol.isReference = true → t.head?.any Text.isDigit = false) : Translates b t p := by
  fun_induction translateFrom whole q t generalizing p b with
  | case1 =>
    cases h
    exact translates_nil b
  | case2 q rest e he =>
    rw [he] at h
    cases h
  | case3 q rest n u he ih =>
    rw [he] at h
    obtain ⟨v, hv, rfl⟩ := map_eq_ok.1 h
    obtain ⟨c, rest, rfl, ⟨hc, d, rest, rfl, hd, rfl, rfl⟩ | ⟨hc, rfl, rfl⟩⟩ := convertEscape_eq_ok he
    · have hrest := ih hv (b := some (.char d)) rfl (by simp [Symbol.isReference])
      have hescape := (hrest.apart (b := some (.escape c)) hc hd).escape (b := b)
      simpa [hc] using hescape
    · exact (ih hv (b := some (.escape c)) rfl hc).escape
  | case4 q rest _ he =>
    rw [he] at h
    cases h
  | case5 q rest n u _ he ih =>
    rw [he] at h
    obtain ⟨v, hv, rfl⟩ := map_eq_ok.1 h
    obtain ⟨inside, t, rfl, hwell, rfl, rfl⟩ := convertSet_eq_some he
    have htext : '[' :: (inside ++ ']' :: t) = '[' :: (inside ++ [']']) ++ t := by simp
    have htake : (('[' :: (inside ++ [']']) ++ t).take (inside.length + 2)).getLast? = some ']' := by
      rw [List.take_left' (by simp), ← List.cons_append, List.getLast?_concat]
    have hdrop : (inside ++ ']' :: t).drop (inside.length + 2 - 1) = t := by
      rw [List.append_cons, List.drop_left' (by simp)]
    rw [htext, htake, hdrop] at hv ih
    rw [htext]
    exact (ih hv (b := some (.set inside)) rfl (by simp [Symbol.isReference])).set hwell
  | case6 q c rest _ _ hc ih =>
    obtain ⟨v, hv, rfl⟩ := map_eq_ok.1 h
    obtain ⟨rfl, hbefore⟩ := hc
    have hcaret := (ih hv (b := some (.char '^')) rfl (by simp [Symbol.isReference])).caret (b := b)
    rw [all_last, hq, hbefore] at hcaret
    exact hcaret
  | case7 q rest hrest _ _ _ ih =>
    obtain ⟨v, hv, rfl⟩ := map_eq_ok.1 h
    have hdollar := (ih hv (b := some (.char '$')) rfl (by simp [Symbol.isReference])).dollar (b := b)
    rwa [if_neg (by cases hhead : rest.head? <;> simp_all)] at hdollar
  | case8 q rest hrest _ _ _ ih =>
    obtain ⟨v, hv, rfl⟩ := map_eq_ok.1 h
    have hdollar := (ih hv (b := some (.char '$')) rfl (by simp [Symbol.isReference])).dollar (b := b)
    rwa [if_pos (by cases hhead : rest.head? <;> simp_all [Classical.or_iff_not_imp_left])] at hdollar
  | case9 => cases h
  | case10 q c rest _ _ _ _ hc hrest ih =>
    obtain ⟨v, hv, rfl⟩ := map_eq_ok.1 h
    exact (ih hv (b := some (.char c)) rfl (by simp [Symbol.isReference])).quantifier hc (by simpa using hrest)
  | case11 => cases h
  | case12 q c rest hs hb hcaret hdollar hquantifier hopening ih =>
    obtain ⟨v, hv, rfl⟩ := map_eq_ok.1 h
    have hrest := ih hv (b := some (.char c)) rfl (by simp [Symbol.isReference])
    by_cases hc : c = '^'
    · subst hc
      have hanchor := hrest.caret (b := b)
      rwa [all_last, hq, if_pos (by simpa using hcaret)] at hanchor
    · by_cases ho : c = '('
      · subst ho
        exact hrest.opening fun hhead => hopening ⟨rfl, hhead⟩
      · refine hrest.plain ?_ (by simpa using hd)
        simp only [List.contains_cons, List.contains_nil, Bool.or_false, Bool.or_eq_true, beq_iff_eq,
          not_or] at hquantifier
        simp [isPlain, hs, hb, hc, hdollar, ho, hquantifier]

lemma mem_doubleBackslashes {d : Char} (hd : d ≠ '\\') (t : Text) : d ∈ doubleBackslashes t ↔ d ∈ t := by
  induction t with
  | nil => rfl
  | cons c t ih =>
    rw [doubleBackslashes]
    split
    · rename_i h
      simp [hd, h.1, ih]
    · simp [ih]

lemma wellFormed_image (hx : x.WellFormed) (b next : Option Symbol) : (x.image b next).WellFormed := by
  cases x with
  | char c =>
    rw [Symbol.image]
    repeat' split
    · exact ⟨by decide, by decide⟩
    · trivial
    · trivial
    · trivial
    · exact ⟨List.cons_ne_nil _ _, List.not_mem_nil⟩
    · exact hx
  | escape c =>
    rw [Symbol.image]
    split
    · trivial
    · rename_i hc
      constructor
      · rintro rfl
        exact hc rfl
      · rintro rfl
        exact hc rfl
  | set inside =>
    obtain ⟨hne, hclosing⟩ := hx
    obtain ⟨c, body, rfl⟩ := List.exists_cons_of_ne_nil hne
    rw [List.tail_cons, ← mem_doubleBackslashes (by decide)] at hclosing
    rw [Symbol.image, doubleBackslashes]
    split
    · exact ⟨List.cons_ne_nil _ _, by simpa using hclosing⟩
    · exact ⟨List.cons_ne_nil _ _, hclosing⟩

lemma wellFormed_images {xs : List Symbol} (h : ∀ x ∈ xs, x.WellFormed) (b : Option Symbol) :
    ∀ y ∈ images b xs, y.WellFormed := by
  induction xs generalizing b with
  | nil => exact List.forall_mem_nil _
  | cons x xs ih =>
    obtain ⟨hx, hxs⟩ := List.forall_mem_cons.1 h
    exact List.forall_mem_cons.2 ⟨wellFormed_image hx _ _, ih hxs _⟩

lemma symbols_of_translate (h : translate t = .ok p) :
    ∃ xs, symbols t = some xs ∧ Fitting xs ∧ symbols p = some (images none xs) := by
  obtain ⟨xs, hwell, htext, hfit, himages⟩ := translates_of_translateFrom h (b := none) rfl (by simp)
  exact ⟨xs, symbols_eq_some_iff.2 ⟨hwell, htext⟩, hfit, symbols_eq_some_iff.2 ⟨wellFormed_images hwell none, himages⟩⟩

end

end StreamEditor.Dialect
