import Mathlib.Data.List.TakeWhile
import StreamEditor.Proofs.Dialect.Bracket
import StreamEditor.Proofs.Outcome
import StreamEditor.Script.Parse

/-! Scanners on a line that goes on after a semicolon. A scanner that comes to an end in a line, before the end of the
line or at it, takes the same from a line that goes on. -/

namespace StreamEditor

lemma Dialect.closingBracket?_append {t : Text} {j : Nat} (h : closingBracket? t = some j) (u : Text) :
    closingBracket? (t ++ u) = some j := by
  obtain ⟨n, hlength, hclosing⟩ := (BracketSet.of_closingBracket? h).closingBracket?_eq (t.drop (j + 1) ++ u)
  rw [List.length_take_of_le (closingBracket?_lt h)] at hlength
  rw [← List.append_assoc, List.take_append_drop] at hclosing
  rw [hclosing, Nat.succ.inj hlength]

namespace Script

section

variable {delim : Char} {t : Text} {n : Nat}

lemma delimiter?_cons (delim c : Char) (t : Text) :
    delimiter? delim (c :: t) =
      if c = delim then some 0 else if c = '\\' then (delimiter? delim (t.drop 1)).map (· + 2)
      else (delimiter? delim t).map (· + 1) := by
  cases t with
  | nil => simp [delimiter?]
  | cons d rest => rfl

lemma delimiter?_lt (h : delimiter? delim t = some n) : n < t.length := by
  fun_induction delimiter? delim t generalizing n with
  | case1 => cases h
  | case2 => simp_all
  | case3 => cases h
  | case4 d rest =>
    obtain rfl : 0 = n := Option.some.inj h
    exact Nat.zero_lt_succ _
  | case5 d rest _ ih =>
    obtain ⟨k, hk, rfl⟩ := Option.map_eq_some_iff.1 h
    exact Nat.add_lt_add_right (ih hk) 2
  | case6 c d rest _ _ ih =>
    obtain ⟨k, hk, rfl⟩ := Option.map_eq_some_iff.1 h
    exact Nat.add_lt_add_right (ih hk) 1

lemma delimiter?_append (h : delimiter? delim t = some n) (u : Text) : delimiter? delim (t ++ u) = some n := by
  fun_induction delimiter? delim t generalizing n with
  | case1 | case3 => cases h
  | case2 => rw [List.cons_append, delimiter?_cons, if_pos rfl, h]
  | case4 d rest => rw [List.cons_append, delimiter?_cons, if_pos rfl, h]
  | case5 d rest hne ih =>
    obtain ⟨k, hk, rfl⟩ := Option.map_eq_some_iff.1 h
    rw [List.cons_append, delimiter?_cons, if_neg hne, if_pos rfl, List.cons_append, List.drop_one, List.tail_cons, ih hk]
    rfl
  | case6 c d rest hne hb ih =>
    obtain ⟨k, hk, rfl⟩ := Option.map_eq_some_iff.1 h
    rw [List.cons_append, delimiter?_cons, if_neg hne, if_neg hb, ih hk]
    rfl

lemma map_add_eq_ok {r : Except Failure (Option Nat)} {k : Nat} (h : r.map (·.map (· + k)) = .ok (some n)) :
    ∃ j, r = .ok (some j) ∧ n = j + k := by
  cases r with
  | error e => cases h
  | ok x =>
    obtain ⟨j, rfl, rfl⟩ := Option.map_eq_some_iff.1 (Except.ok.inj h)
    exact ⟨j, rfl, rfl⟩

lemma regexpEnd_lt (h : regexpEnd delim t = .ok (some n)) : n < t.length := by
  fun_induction regexpEnd delim t generalizing n with
  | case1 | case4 => cases h
  | case2 =>
    cases h
    exact Nat.zero_lt_succ _
  | case3 rest _ ih =>
    obtain ⟨j, hj, rfl⟩ := map_add_eq_ok h
    have hlt := ih hj
    rw [List.length_drop] at hlt
    rw [List.length_cons]
    omega
  | case5 rest k _ _ hk ih =>
    obtain ⟨j, hj, rfl⟩ := map_add_eq_ok h
    have hlt := ih hj
    rw [List.length_drop] at hlt
    rw [List.length_cons]
    omega
  | case6 c rest _ _ _ ih =>
    obtain ⟨j, hj, rfl⟩ := map_add_eq_ok h
    exact Nat.succ_lt_succ (ih hj)

lemma regexpEnd_append (h : regexpEnd delim t = .ok (some n)) (u : Text) :
    regexpEnd delim (t ++ u) = .ok (some n) := by
  fun_induction regexpEnd delim t generalizing n with
  | case1 | case4 => cases h
  | case2 => rw [List.cons_append, regexpEnd, if_pos rfl, h]
  | case3 rest hne ih =>
    obtain ⟨j, hj, rfl⟩ := map_add_eq_ok h
    cases rest with
    | nil =>
      rw [List.drop_nil, regexpEnd] at hj
      cases hj
    | cons d rest =>
      have hrest : regexpEnd delim (rest ++ u) = .ok (some j) := ih hj
      rw [List.cons_append, regexpEnd, if_neg hne, if_pos rfl, List.cons_append, List.drop_one, List.tail_cons, hrest]
      rfl
  | case5 rest k hne hb hk ih =>
    obtain ⟨j, hj, rfl⟩ := map_add_eq_ok h
    have hle : k ≤ rest.length := Nat.le_of_lt_succ (Dialect.closingBracket?_lt hk)
    rw [List.cons_append, regexpEnd, if_neg hne, if_neg hb, if_pos rfl, ← List.cons_append,
      Dialect.closingBracket?_append hk u]
    dsimp only
    rw [List.drop_append_of_le_length hle, ih hj]
    rfl
  | case6 c rest hne hb hs ih =>
    obtain ⟨j, hj, rfl⟩ := map_add_eq_ok h
    rw [List.cons_append, regexpEnd, if_neg hne, if_neg hb, if_neg hs, ih hj]
    rfl

end

section

variable {l u : Text} {i j : Nat}

lemma takeWhile_extended {p : Char → Bool} (hp : p ';' = false) (t u : Text) :
    (t ++ ';' :: u).takeWhile p = t.takeWhile p := by
  induction t with
  | nil => exact List.takeWhile_cons_of_neg (by simp [hp])
  | cons c t ih => rw [List.cons_append, List.takeWhile_cons, List.takeWhile_cons, ih]

lemma dropWhile_extended {p : Char → Bool} (hp : p ';' = false) (t u : Text) :
    (t ++ ';' :: u).dropWhile p = t.dropWhile p ++ ';' :: u := by
  induction t with
  | nil => exact List.dropWhile_cons_of_neg (by simp [hp])
  | cons c t ih =>
    rw [List.cons_append, List.dropWhile_cons, List.dropWhile_cons, ih]
    split <;> rfl

lemma drop_length_takeWhile (p : Char → Bool) (t : Text) : t.drop (t.takeWhile p).length = t.dropWhile p := by
  calc
    _ = (t.takeWhile p ++ t.dropWhile p).drop (t.takeWhile p).length := by rw [List.takeWhile_append_dropWhile]
    _ = _ := List.drop_left

lemma length_takeWhile_drop_le (p : Char → Bool) (hi : i ≤ l.length) :
    i + ((l.drop i).takeWhile p).length ≤ l.length := by
  have hle := (List.takeWhile_prefix p (l := l.drop i)).length_le
  rw [List.length_drop] at hle
  omega

lemma length_takeWhile_dropWhile (p : Char → Bool) (hi : i ≤ l.length) :
    i + ((l.drop i).takeWhile p).length + ((l.drop i).dropWhile p).length = l.length := by
  have hsplit := congrArg List.length (List.takeWhile_append_dropWhile (p := p) (l := l.drop i))
  rw [List.length_append, List.length_drop] at hsplit
  omega

lemma length_of_drop_eq_cons {c : Char} {rest : Text} (h : l.drop i = c :: rest) : l.length = i + (rest.length + 1) := by
  have hlength := congrArg List.length h
  rw [List.length_drop, List.length_cons] at hlength
  omega

lemma skipBlanks_le (hi : i ≤ l.length) : skipBlanks l i ≤ l.length := length_takeWhile_drop_le _ hi

lemma skipBlanks_extended (hi : i ≤ l.length) (u : Text) : skipBlanks (l ++ ';' :: u) i = skipBlanks l i := by
  rw [skipBlanks, List.drop_append_of_le_length hi, takeWhile_extended (by decide)]
  rfl

lemma number_extended (hi : i ≤ l.length) (u : Text) : number (l ++ ';' :: u) i = number l i := by
  rw [number, List.drop_append_of_le_length hi, takeWhile_extended (by decide)]
  rfl

lemma number_le {n : Option Nat} (hi : i ≤ l.length) (h : number l i = .ok (j, n)) : j ≤ l.length := by
  have hle := length_takeWhile_drop_le Text.isAsciiDigit hi
  rw [number] at h
  split at h
  · cases h
    exact hi
  · split at h
    · cases h
    · cases h
      exact hle

lemma getElem?_extended {c : Char} (hc : c ≠ ';') (hi : i ≤ l.length) (u : Text) :
    (l ++ ';' :: u)[i]? = some c ↔ l[i]? = some c := by
  rcases Nat.lt_or_eq_of_le hi with hlt | rfl
  · rw [List.getElem?_append_left hlt]
  · simp [Ne.symm hc]

lemma regexp_extended {delim : Option Char} {source : Text} (h : regexp l i delim = .ok (j, some source)) (u : Text) :
    regexp (l ++ ';' :: u) i delim = .ok (j, some source) ∧ i + 2 ≤ j ∧ j ≤ l.length := by
  rw [regexp] at h
  cases ht : l.drop i with
  | nil =>
    rw [ht] at h
    cases h
  | cons c body =>
    have hlength := length_of_drop_eq_cons ht
    have hi : i ≤ l.length := hlength ▸ Nat.le_add_right _ _
    rw [ht] at h
    dsimp only at h
    split at h
    · rename_i hd
      obtain ⟨n, hn, h⟩ := bind_eq_ok.1 h
      cases n with
      | none => cases h
      | some n =>
        cases h
        have hlt := regexpEnd_lt hn
        refine ⟨?_, by omega, by omega⟩
        rw [regexp, List.drop_append_of_le_length hi, ht, List.cons_append]
        dsimp only
        rw [if_pos hd, regexpEnd_append hn]
        change Except.ok (i + n + 2, some ((body ++ ';' :: u).take n)) = _
        rw [List.take_append_of_le_length hlt.le]
    · cases h

lemma regexp_slash_extended (hi : i ≤ l.length) (h : regexp l i (some '/') = .ok (j, none)) (u : Text) :
    j = i ∧ (l[i]? = some '/' ∨ regexp (l ++ ';' :: u) i (some '/') = .ok (i, none)) := by
  have hother {c : Char} {rest : Text} (hc : c ≠ '/') (ht : (l ++ ';' :: u).drop i = c :: rest) :
      regexp (l ++ ';' :: u) i (some '/') = .ok (i, none) := by
    rw [regexp, ht]
    dsimp only
    rw [if_neg (by simpa using Ne.symm hc)]
  have hdrop : (l ++ ';' :: u).drop i = l.drop i ++ ';' :: u := List.drop_append_of_le_length hi
  rw [regexp] at h
  cases ht : l.drop i with
  | nil =>
    rw [ht] at h hdrop
    cases h
    exact ⟨rfl, .inr (hother (by decide) hdrop)⟩
  | cons c body =>
    rw [ht] at h hdrop
    dsimp only at h
    by_cases hc : c = '/'
    · subst hc
      have hget : l[i]? = some '/' := by
        rw [← List.head?_drop, ht]
        rfl
      rw [if_pos (by rfl)] at h
      obtain ⟨n, -, h⟩ := bind_eq_ok.1 h
      cases n with
      | none =>
        cases h
        exact ⟨rfl, .inl hget⟩
      | some n => cases h
    · rw [if_neg (by simpa using Ne.symm hc)] at h
      cases h
      exact ⟨rfl, .inr (hother hc hdrop)⟩

def opensAddress (text : Text) (i : Nat) : Bool :=
  match number text i with
  | .ok (j, _) => text[j]? = some '\\' && ((regexp text (j + 1) none).toOption.any (·.2.isNone))
  | .error _ => false

def lettered (text : Text) : Nat × Option Text → Nat × Option Address
  | (i, none) => (i, none)
  | (i, some source) =>
    if text[i]? = some 'I' then (i + 1, some (.regexp source true none)) else (i, some (.regexp source false none))

def marked (text : Text) (i : Nat) : Except Failure (Nat × Option Address) :=
  if text[i]? = some '$' then .ok (i + 1, some .last)
  else (if text[i]? = some '\\' then regexp text (i + 1) none else regexp text i (some '/')).map (lettered text)

def numbered (text : Text) : Nat × Option Nat → Except Failure (Nat × Option Address)
  | (i, some (n + 1)) => .ok (i, some (.line (n + 1)))
  | (i, _) => marked text i

lemma address_eq (text : Text) (i : Nat) : address text i = number text i >>= numbered text := by
  have hmap {f : Nat × Option Text → Except Failure (Nat × Option Address)} (hf : ∀ r, f r = .ok (lettered text r))
      (x : Except Failure (Nat × Option Text)) : x >>= f = x.map (lettered text) := by
    cases x with
    | error e => rfl
    | ok r => exact hf r
  rw [address]
  refine congrArg (number text i >>= ·) (funext fun r => ?_)
  obtain ⟨j, _ | _ | n⟩ := r
  rotate_right
  · rfl
  all_goals
    change _ = marked text j
    rw [marked]
    dsimp only
    split
    · rfl
    · split
      all_goals
        refine hmap (fun r => ?_) _
        obtain ⟨k, _ | source⟩ := r
        · rfl
        · rw [lettered]
          exact (apply_ite Except.ok _ _ _).symm

lemma lettered_extended {source : Text} {a : Option Address} (hi : i ≤ l.length)
    (h : lettered l (i, some source) = (j, a)) (u : Text) :
    lettered (l ++ ';' :: u) (i, some source) = (j, a) ∧ j ≤ l.length := by
  rw [lettered] at h ⊢
  by_cases hI : l[i]? = some 'I'
  · rw [if_pos hI] at h
    cases h
    exact ⟨if_pos ((getElem?_extended (by decide) hi u).2 hI), (List.getElem?_eq_some_iff.1 hI).1⟩
  · rw [if_neg hI] at h
    cases h
    exact ⟨if_neg (mt (getElem?_extended (by decide) hi u).1 hI), hi⟩

lemma marked_extended {a : Option Address} (hi : i ≤ l.length) (h : marked l i = .ok (j, a)) (u : Text) :
    marked (l ++ ';' :: u) i = .ok (j, a) ∧ j ≤ l.length ∨
      a = none ∧ (l[i]? = some '\\' ∧ regexp l (i + 1) none = .ok (j, none) ∨ l[j]? = some '/') := by
  rw [marked] at h ⊢
  by_cases hlast : l[i]? = some '$'
  · rw [if_pos hlast] at h
    rw [if_pos ((getElem?_extended (by decide) hi u).2 hlast)]
    cases h
    exact .inl ⟨rfl, (List.getElem?_eq_some_iff.1 hlast).1⟩
  · rw [if_neg hlast] at h
    rw [if_neg (mt (getElem?_extended (by decide) hi u).1 hlast)]
    have hclosed {delim : Option Char} {i : Nat} {source : Text} {k : Nat}
        (hr : regexp l i delim = .ok (k, some source)) (h : (regexp l i delim).map (lettered l) = .ok (j, a)) :
        (regexp (l ++ ';' :: u) i delim).map (lettered (l ++ ';' :: u)) = .ok (j, a) ∧ j ≤ l.length := by
      obtain ⟨hr', -, hk⟩ := regexp_extended hr u
      rw [hr] at h
      rw [hr']
      obtain ⟨hl, hj⟩ := lettered_extended hk (Except.ok.inj h) u
      exact ⟨congrArg Except.ok hl, hj⟩
    by_cases hb : l[i]? = some '\\'
    · rw [if_pos hb] at h
      rw [if_pos ((getElem?_extended (by decide) hi u).2 hb)]
      rcases hr : regexp l (i + 1) none with e | ⟨k, _ | source⟩
      · rw [hr] at h
        cases h
      · rw [hr] at h
        cases h
        exact .inr ⟨rfl, .inl ⟨hb, rfl⟩⟩
      · exact .inl (hclosed hr h)
    · rw [if_neg hb] at h
      rw [if_neg (mt (getElem?_extended (by decide) hi u).1 hb)]
      rcases hr : regexp l i (some '/') with e | ⟨k, _ | source⟩
      · rw [hr] at h
        cases h
      · obtain ⟨rfl, hslash⟩ := regexp_slash_extended hi hr u
        rw [hr] at h
        cases h
        rcases hslash with hslash | hslash
        · exact .inr ⟨rfl, .inr hslash⟩
        · rw [hslash]
          exact .inl ⟨rfl, hi⟩
      · exact .inl (hclosed hr h)

lemma address_extended {a : Option Address} (hi : i ≤ l.length) (h : address l i = .ok (j, a)) (u : Text) :
    address (l ++ ';' :: u) i = .ok (j, a) ∧ j ≤ l.length ∨
      a = none ∧ (opensAddress l i = true ∨ l[j]? = some '/') := by
  rw [address_eq] at h ⊢
  obtain ⟨⟨k, n⟩, hn, h⟩ := bind_eq_ok.1 h
  have hk := number_le hi hn
  have hopens : opensAddress l i = (l[k]? = some '\\' && (regexp l (k + 1) none).toOption.any (·.2.isNone)) := by
    rw [opensAddress, hn]
  have hmarked (h : marked l k = .ok (j, a)) :
      marked (l ++ ';' :: u) k = .ok (j, a) ∧ j ≤ l.length ∨
        a = none ∧ (opensAddress l i = true ∨ l[j]? = some '/') := by
    refine (marked_extended hk h u).imp_right fun ⟨ha, hopen⟩ => ⟨ha, hopen.imp_left fun ⟨hb, hr⟩ => ?_⟩
    rw [hopens, hb, hr]
    rfl
  rw [number_extended hi, hn]
  rcases n with _ | _ | n
  · exact hmarked h
  · exact hmarked h
  · cases h
    exact .inl ⟨rfl, hk⟩

lemma skipBlanks_eq_self {c : Char} (hc : Text.isBlank c = false) (h : l[i]? = some c) : skipBlanks l i = i := by
  obtain ⟨hi, hget⟩ := List.getElem?_eq_some_iff.1 h
  rw [skipBlanks, List.drop_eq_getElem_cons hi, hget, List.takeWhile_cons_of_neg (by simp [hc])]
  rfl

def rangeEnd (text : Text) (first : Option Address) (i : Nat) : Except Failure (Nat × Option Address) :=
  if text[i]? = some ',' then
    if first.isNone then .error (.fault .incorrectRange)
    else
      (address text (skipBlanks text (i + 1))).bind fun r =>
        if r.2.isNone then .error (.fault .incorrectRange) else .ok r
  else .ok (i, none)

def negation (text : Text) (i : Nat) : Nat × Bool := if text[i]? = some '!' then (i + 1, true) else (i, false)

lemma addresses_eq (text : Text) (i : Nat) :
    addresses text i = (do
      let (j, first) ← address text (skipBlanks text i)
      let (k, second) ← rangeEnd text first (skipBlanks text j)
      .ok ((negation text (skipBlanks text k)).1, first, second, (negation text (skipBlanks text k)).2)) := by
  rw [addresses]
  refine congrArg (address text (skipBlanks text i) >>= ·) (funext fun r => ?_)
  obtain ⟨j, first⟩ := r
  have hend (k : Nat) (second : Option Address) :
      (if text[skipBlanks text k]? = some '!' then Except.ok (skipBlanks text k + 1, first, second, true)
        else .ok (skipBlanks text k, first, second, false)) =
        (.ok ((negation text (skipBlanks text k)).1, first, second, (negation text (skipBlanks text k)).2) :
          Except Failure _) := by
    rw [negation]
    split <;> rfl
  dsimp only
  rw [rangeEnd]
  split
  · split
    · rfl
    · rcases address text (skipBlanks text (skipBlanks text j + 1)) with e | ⟨k, _ | second⟩
      · rfl
      · rfl
      · exact hend k (some second)
  · exact hend (skipBlanks text j) none

lemma negation_extended (hi : i ≤ l.length) (u : Text) :
    negation (l ++ ';' :: u) i = negation l i ∧ (negation l i).1 ≤ l.length := by
  rw [negation, negation]
  by_cases hb : l[i]? = some '!'
  · rw [if_pos hb, if_pos ((getElem?_extended (by decide) hi u).2 hb)]
    exact ⟨rfl, (List.getElem?_eq_some_iff.1 hb).1⟩
  · rw [if_neg hb, if_neg (mt (getElem?_extended (by decide) hi u).1 hb)]
    exact ⟨rfl, hi⟩

lemma rangeEnd_extended {first a : Option Address} (hi : i ≤ l.length) (h : rangeEnd l first i = .ok (j, a)) (u : Text) :
    rangeEnd (l ++ ';' :: u) first i = .ok (j, a) ∧ j ≤ l.length := by
  rw [rangeEnd] at h ⊢
  by_cases hcomma : l[i]? = some ','
  · have hlt : i + 1 ≤ l.length := (List.getElem?_eq_some_iff.1 hcomma).1
    rw [if_pos hcomma] at h
    rw [if_pos ((getElem?_extended (by decide) hi u).2 hcomma), skipBlanks_extended hlt]
    split at h
    · cases h
    · rename_i hfirst
      rw [if_neg hfirst]
      obtain ⟨⟨k, b⟩, hb, h⟩ := bind_eq_ok.1 h
      dsimp only at h
      split at h
      · cases h
      · rename_i hsome
        cases h
        rcases address_extended (skipBlanks_le hlt) hb u with ⟨haddr, hj⟩ | ⟨rfl, -⟩
        · refine ⟨?_, hj⟩
          rw [haddr]
          exact if_neg hsome
        · exact absurd rfl hsome
  · rw [if_neg hcomma] at h
    rw [if_neg (mt (getElem?_extended (by decide) hi u).1 hcomma)]
    cases h
    exact ⟨rfl, hi⟩

lemma addresses_extended {first second : Option Address} {negated : Bool}
    (h : addresses l 0 = .ok (i, first, second, negated)) (hopen : opensAddress l (skipBlanks l 0) = false) (u : Text) :
    addresses (l ++ ';' :: u) 0 = .ok (i, first, second, negated) ∧ i ≤ l.length ∨ l[i]? = some '/' := by
  rw [addresses_eq] at h ⊢
  obtain ⟨⟨j, a⟩, ha, h⟩ := bind_eq_ok.1 h
  obtain ⟨⟨k, b⟩, hb, h⟩ := bind_eq_ok.1 h
  rw [skipBlanks_extended (Nat.zero_le _)]
  rcases address_extended (skipBlanks_le (Nat.zero_le _)) ha u with ⟨ha', hj⟩ | ⟨rfl, hno | hslash⟩
  · obtain ⟨hb', hk⟩ := rangeEnd_extended (skipBlanks_le hj) hb u
    obtain ⟨hneg, hle⟩ := negation_extended (skipBlanks_le hk) u
    refine .inl ⟨?_, ?_⟩
    · rw [ha']
      change ((rangeEnd (l ++ ';' :: u) a (skipBlanks (l ++ ';' :: u) j)) >>= _) = _
      rw [skipBlanks_extended hj, hb']
      change Except.ok ((negation (l ++ ';' :: u) (skipBlanks (l ++ ';' :: u) k)).1, _) = _
      rw [skipBlanks_extended hk, hneg]
      exact h
    · cases h
      exact hle
  · rw [hopen] at hno
    cases hno
  · right
    have hskip := skipBlanks_eq_self (by decide) hslash
    rw [hskip, rangeEnd, hslash, if_neg (by decide)] at hb
    cases hb
    dsimp only at h
    rw [hskip, negation, hslash, if_neg (by decide)] at h
    cases h
    exact hslash

/-- A position in a line and the one reached in its place if the line goes on: it is the same, or after the semicolon
that stands where the line ended. -/
def SamePlace (l : Text) (i j : Nat) : Prop := i ≤ l.length ∧ (j = i ∨ i = l.length ∧ j = l.length + 1)

lemma SamePlace.refl (hi : i ≤ l.length) : SamePlace l i i := ⟨hi, .inl rfl⟩

def meetsComment (text : Text) (i : Nat) : Bool := ((text.drop i).dropWhile (!isTerminator ·)).head? = some '#'

def stopAt (size i : Nat) : Text → Nat
  | ';' :: _ => i + 1
  | '#' :: _ => size
  | _ => i

lemma stopAt_cons {c : Char} (hc : c ≠ '#') (size i : Nat) (rest : Text) :
    stopAt size i (c :: rest) = if c = ';' then i + 1 else i := by
  by_cases hs : c = ';'
  · rw [if_pos hs, hs, stopAt]
  · simp [stopAt, hs, hc]

lemma tail_eq {text : Text} (hi : i ≤ text.length) :
    tail text i = .ok (stopAt text.length (i + ((text.drop i).takeWhile (!isTerminator ·)).length)
      ((text.drop i).dropWhile (!isTerminator ·)), Text.trimRight ((text.drop i).takeWhile (!isTerminator ·))) := by
  rw [tail, if_neg (Nat.not_lt.2 hi)]
  dsimp only
  rw [drop_length_takeWhile]
  rfl

lemma tail_extended {t : Text} (hi : i ≤ l.length) (h : tail l i = .ok (j, t)) (hc : meetsComment l i = false)
    (u : Text) : ∃ k, tail (l ++ ';' :: u) i = .ok (k, t) ∧ SamePlace l j k := by
  have hlength := length_takeWhile_dropWhile (!isTerminator ·) hi
  rw [tail_eq hi] at h
  cases h
  rw [tail_eq (hi.trans (by simp)), List.drop_append_of_le_length hi,
    takeWhile_extended (by decide), dropWhile_extended (by decide)]
  refine ⟨_, rfl, ?_⟩
  rw [meetsComment] at hc
  cases hd : (l.drop i).dropWhile (!isTerminator ·) with
  | nil =>
    rw [hd] at hlength
    exact ⟨hlength.le, .inr ⟨hlength, congrArg (· + 1) hlength⟩⟩
  | cons c rest =>
    rw [hd] at hlength hc
    rw [List.length_cons] at hlength
    have hcomment : c ≠ '#' := by simpa using hc
    rw [List.cons_append, stopAt_cons hcomment, stopAt_cons hcomment]
    split
    · exact .refl (by omega)
    · exact .refl (by omega)

end

end Script

end StreamEditor
