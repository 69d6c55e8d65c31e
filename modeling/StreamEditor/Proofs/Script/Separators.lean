import StreamEditor.Proofs.Script.Extension
import StreamEditor.Proofs.Script.Numbering

namespace StreamEditor

def Action.isText : Action → Bool
  | .append _ | .insert _ | .change _ => true
  | _ => false

namespace Script

section

variable {l : Text} {i j : Nat}

lemma delimiter?_extended {delim : Char} {n : Nat} (hi : i ≤ l.length) (h : delimiter? delim (l.drop i) = some n)
    (u : Text) :
    delimiter? delim ((l ++ ';' :: u).drop i) = some n ∧ ((l ++ ';' :: u).drop i).take n = (l.drop i).take n ∧
      i + n < l.length := by
  have hlt := delimiter?_lt h
  rw [List.drop_append_of_le_length hi]
  refine ⟨delimiter?_append h _, List.take_append_of_le_length hlt.le, ?_⟩
  rw [List.length_drop] at hlt
  omega

lemma replacement_extended {delim : Char} {new : Option Text} (hl : l ≠ []) (hi : i ≤ l.length)
    (h : replacement l i delim = .ok (j, new)) (u : Text) :
    replacement (l ++ ';' :: u) i delim = .ok (j, new) ∧ j ≤ l.length := by
  rw [replacement, if_neg (by simpa using hl)] at h
  rw [replacement, if_neg (by simp)]
  cases hn : delimiter? delim (l.drop i) with
  | none =>
    rw [hn] at h
    cases h
  | some n =>
    rw [hn] at h
    cases h
    obtain ⟨hn', htake, hlt⟩ := delimiter?_extended hi hn u
    rw [← htake, hn']
    exact ⟨rfl, hlt⟩

lemma transliterationPart_extended {sep : Char} {t : Text} (hi : i ≤ l.length)
    (h : transliterationPart l i sep = .ok (j, t)) (u : Text) :
    transliterationPart (l ++ ';' :: u) i sep = .ok (j, t) ∧ j ≤ l.length := by
  rw [transliterationPart] at h ⊢
  cases hn : delimiter? sep (l.drop i) with
  | none =>
    rw [hn] at h
    cases h
  | some n =>
    rw [hn] at h
    cases h
    obtain ⟨hn', htake, hlt⟩ := delimiter?_extended hi hn u
    rw [← htake, hn']
    exact ⟨rfl, hlt⟩

end

def pieces (text : Text) (i : Nat) : Except Failure (Nat × Option Text × Option Text) := do
  let (j, pattern) ← regexp text i none
  match charBefore text j with
  | none => throw .stringIndex
  | some delim =>
    let (k, new) ← replacement text j delim
    .ok (k, pattern, new)

def flagged (pattern new : Option Text) (flags : Text) : Except Failure Substitution := do
  let letters := flags.takeWhile isFlag
  let file ← flagFile flags (flags.dropWhile isFlag)
  let count ← flagCount letters
  .ok ⟨pattern, new.getD [], count, letters.contains 'p', letters.contains 'i' || letters.contains 'I', file.isSome,
    Text.trim (file.getD []), .pending⟩

lemma substitution_eq (text : Text) (i : Nat) :
    substitution text i = (do
      let (j, pattern, new) ← pieces text i
      let (k, flags) ← tail text j
      (flagged pattern new flags).map (k, ·)) := by
  rw [substitution, pieces]
  rcases regexp text i none with e | ⟨j, pattern⟩
  · rfl
  · change (match charBefore text j with | none => _ | some delim => _) =
      (match charBefore text j with | none => _ | some delim => _) >>= _
    cases charBefore text j with
    | none => rfl
    | some delim =>
      dsimp only
      rcases replacement text j delim with e | ⟨k, new⟩
      · rfl
      · refine congrArg (tail text k >>= ·) (funext fun r => ?_)
        dsimp only
        rw [flagged]
        rcases flagFile r.2 (r.2.dropWhile isFlag) with e | file
        · rfl
        · change (flagCount (r.2.takeWhile isFlag) >>= _) = (flagCount (r.2.takeWhile isFlag) >>= _).map _
          rcases flagCount (r.2.takeWhile isFlag) with e | count <;> rfl

def sides (text : Text) (i : Nat) : Except Failure (Nat × Text × Text) :=
  if text.isEmpty then .error (.fault .transliterationUnterminated)
  else
    match text[i]? with
    | none => .error .stringIndex
    | some sep => do
      let (j, source) ← transliterationPart text (i + 1) sep
      let (k, dest) ← transliterationPart text j sep
      .ok (k, source, dest)

lemma transliteration_eq (text : Text) (i : Nat) :
    transliteration text i = (do
      let (j, source, dest) ← sides text i
      let (k, rest) ← tail text j
      if (Text.trim rest).isEmpty then .ok (k, ⟨source, dest, none⟩)
      else .error (.fault .transliterationExtra)) := by
  rw [transliteration, sides]
  split
  · rfl
  · cases text[i]? with
    | none => rfl
    | some sep =>
      dsimp only
      rcases transliterationPart text (i + 1) sep with e | ⟨j, source⟩
      · rfl
      · change (transliterationPart text j sep >>= _) = (transliterationPart text j sep >>= _) >>= _
        rcases transliterationPart text j sep with e | ⟨k, dest⟩ <;> rfl

section

variable {l : Text} {i j : Nat}

lemma charBefore_extended (hi : 0 < i) (hl : i ≤ l.length) (u : Text) :
    charBefore (l ++ ';' :: u) i = charBefore l i := by
  rw [charBefore, charBefore, if_neg hi.ne', if_neg hi.ne', List.getElem?_append_left (by omega)]

lemma pieces_extended {pattern : Text} {new : Option Text} (h : pieces l i = .ok (j, some pattern, new)) (u : Text) :
    pieces (l ++ ';' :: u) i = .ok (j, some pattern, new) ∧ j ≤ l.length := by
  rw [pieces] at h ⊢
  obtain ⟨⟨k, source⟩, hr, h⟩ := bind_eq_ok.1 h
  dsimp only at h
  cases hd : charBefore l k with
  | none =>
    rw [hd] at h
    cases h
  | some delim =>
    rw [hd] at h
    obtain ⟨⟨k', new'⟩, hnew, h⟩ := bind_eq_ok.1 h
    cases h
    obtain ⟨hr', hk, hkl⟩ := regexp_extended hr u
    have hl : l ≠ [] := by
      rintro rfl
      exact absurd (hk.trans hkl) (by simp)
    obtain ⟨hnew', hj⟩ := replacement_extended hl hkl hnew u
    refine ⟨?_, hj⟩
    rw [hr']
    change (match charBefore (l ++ ';' :: u) k with | none => _ | some delim => _) = _
    rw [charBefore_extended (by omega) hkl, hd]
    dsimp only
    rw [hnew']
    rfl

lemma sides_extended {r : Nat × Text × Text} (h : sides l i = .ok r) (u : Text) :
    sides (l ++ ';' :: u) i = .ok r ∧ r.1 ≤ l.length := by
  rw [sides] at h
  split at h
  · cases h
  · cases hs : l[i]? with
    | none =>
      rw [hs] at h
      cases h
    | some sep =>
      rw [hs] at h
      have hi : i < l.length := (List.getElem?_eq_some_iff.1 hs).1
      obtain ⟨⟨j, source⟩, hj, h⟩ := bind_eq_ok.1 h
      obtain ⟨⟨k, dest⟩, hk, h⟩ := bind_eq_ok.1 h
      cases h
      obtain ⟨hj', hjl⟩ := transliterationPart_extended hi hj u
      obtain ⟨hk', hkl⟩ := transliterationPart_extended hjl hk u
      refine ⟨?_, hkl⟩
      rw [sides, if_neg (by simp), List.getElem?_append_left hi, hs]
      dsimp only
      rw [hj']
      change (transliterationPart (l ++ ';' :: u) j sep >>= _) = _
      rw [hk']
      rfl

lemma pattern_flagged {pattern new : Option Text} {flags : Text} {s : Substitution}
    (h : flagged pattern new flags = .ok s) : s.pattern = pattern := by
  rw [flagged] at h
  obtain ⟨file, -, h⟩ := bind_eq_ok.1 h
  obtain ⟨count, -, h⟩ := bind_eq_ok.1 h
  cases h
  rfl

lemma substitution_extended {s : Substitution} (h : substitution l i = .ok (j, s)) (hs : s.pattern ≠ none)
    (hc : ∀ k r, pieces l i = .ok (k, r) → meetsComment l k = false) (u : Text) :
    ∃ k, substitution (l ++ ';' :: u) i = .ok (k, s) ∧ SamePlace l j k := by
  rw [substitution_eq] at h ⊢
  obtain ⟨⟨k, pattern, new⟩, hp, h⟩ := bind_eq_ok.1 h
  obtain ⟨⟨k', flags⟩, ht, h⟩ := bind_eq_ok.1 h
  dsimp only at h ht
  cases hf : flagged pattern new flags with
  | error e =>
    rw [hf] at h
    cases h
  | ok s' =>
    rw [hf] at h
    cases h
    obtain ⟨source, rfl⟩ := Option.ne_none_iff_exists'.1 (pattern_flagged hf ▸ hs)
    obtain ⟨hp', hk⟩ := pieces_extended hp u
    obtain ⟨k'', ht', hplace⟩ := tail_extended hk ht (hc _ _ hp) u
    refine ⟨k'', ?_, hplace⟩
    rw [hp']
    change (tail (l ++ ';' :: u) k >>= _) = _
    rw [ht']
    change (flagged (some source) new flags).map _ = _
    rw [hf]
    rfl

lemma transliteration_extended {y : Transliteration} (h : transliteration l i = .ok (j, y))
    (hc : ∀ k r, sides l i = .ok (k, r) → meetsComment l k = false) (u : Text) :
    ∃ k, transliteration (l ++ ';' :: u) i = .ok (k, y) ∧ SamePlace l j k := by
  rw [transliteration_eq] at h ⊢
  obtain ⟨⟨k, source, dest⟩, hp, h⟩ := bind_eq_ok.1 h
  obtain ⟨⟨k', rest⟩, ht, h⟩ := bind_eq_ok.1 h
  dsimp only at h ht
  split at h
  · rename_i hrest
    cases h
    obtain ⟨hp', hk⟩ := sides_extended hp u
    obtain ⟨k'', ht', hplace⟩ := tail_extended hk ht (hc _ _ hp) u
    refine ⟨k'', ?_, hplace⟩
    rw [hp']
    change (tail (l ++ ';' :: u) k >>= _) = _
    rw [ht']
    exact if_pos hrest
  · cases h

end

def tailStart (line : Text) (i : Nat) (c : Char) : Option Nat :=
  if c = '{' || c = '}' || (textAction? c).isSome then none
  else if c = 's' then (pieces line i).toOption.map (·.1)
  else if c = 'y' then (sides line i).toOption.map (·.1)
  else some (skipBlanks line i)

def readsComment (line : Text) : Bool :=
  match addresses line 0 with
  | .error _ => false
  | .ok (i, _) =>
    match function line i with
    | (_, none) => false
    | (j, some c) => c = '#' || c ≠ ';' && (tailStart line j c).any (meetsComment line)

def leavesAddressOpen (line : Text) : Bool := opensAddress line (skipBlanks line 0)

def places (line : Text) : List Text :=
  match line with
  | [] => []
  | c :: rest =>
    (c :: rest) ::
      match command (c :: rest) 0 with
      | .ok (i, _) _ => places (rest.drop (i - 1))
      | .error _ _ => []
termination_by line.length
decreasing_by simp only [List.length_drop, List.length_cons]; omega

section

variable {l : Text} {i j : Nat} {c : Char}

lemma isText_of_textAction? {f : Text → Action} (h : textAction? c = some f) (t : Text) : (f t).isText = true := by
  have hf := List.mem_of_find?_eq_some h
  simp only [List.mem_cons, List.not_mem_nil, or_false] at hf
  rcases hf with rfl | rfl | rfl <;> rfl

lemma argument_extended {t : Text} (hi : i ≤ l.length) (h : argument l i = .ok (j, t))
    (hc : meetsComment l (skipBlanks l i) = false) (u : Text) :
    ∃ k, argument (l ++ ';' :: u) i = .ok (k, t) ∧ SamePlace l j k := by
  rw [argument, skipBlanks_extended hi]
  exact tail_extended (skipBlanks_le hi) h hc u

def worded (c : Char) (r : Nat × Text) : Except Failure (Nat × Action) :=
  match wordAction? c with
  | some f => .ok (r.1, f r.2)
  | none =>
    if r.2.isEmpty then
      match plainAction? c with
      | some a => .ok (r.1, a)
      | none => .error (.fault (.unknownFunction c))
    else .error (.fault (.argumentsNotAllowed c r.2))

section

variable (hc : ['{', '}', 's', 'y'].contains c = false) (line : Text) (i : Nat)
include hc

lemma action_of_ordinary :
    action line i c =
      match textAction? c with
      | some f => .ok ((textArgument line i).1, f (textArgument line i).2)
      | none => argument line i >>= worded c := by
  simp only [List.contains_cons, List.contains_nil, Bool.or_false, Bool.or_eq_false_iff, beq_eq_false_iff_ne] at hc
  obtain ⟨hopen, hclose, hsub, htr⟩ := hc
  rw [action, if_neg hopen, if_neg hclose, if_neg hsub, if_neg htr, show worded c = fun r => worded c r from rfl]
  simp only [worded]
  cases textAction? c with
  | some f => rfl
  | none => cases wordAction? c <;> rfl

lemma tailStart_of_ordinary (ht : textAction? c = none) : tailStart line i c = some (skipBlanks line i) := by
  simp only [List.contains_cons, List.contains_nil, Bool.or_false, Bool.or_eq_false_iff, beq_eq_false_iff_ne] at hc
  obtain ⟨hopen, hclose, hsub, htr⟩ := hc
  simp [tailStart, hopen, hclose, hsub, htr, ht]

end

lemma worded_extended {word : Text} {a : Action} (h : worded c (i, word) = .ok (j, a)) (k : Nat) :
    j = i ∧ worded c (k, word) = .ok (k, a) := by
  rw [worded] at h ⊢
  cases hw : wordAction? c with
  | some f =>
    rw [hw] at h
    cases h
    exact ⟨rfl, rfl⟩
  | none =>
    rw [hw] at h
    by_cases hempty : word.isEmpty = true
    · dsimp only at h ⊢
      rw [if_pos hempty] at h ⊢
      cases hp : plainAction? c with
      | some b =>
        rw [hp] at h
        cases h
        exact ⟨rfl, rfl⟩
      | none =>
        rw [hp] at h
        cases h
    · rw [if_neg hempty] at h
      cases h

-- One case for each way in which an action takes its arguments.
lemma action_extended {a : Action} (hi : i ≤ l.length) (h : action l i c = .ok (j, a)) (ha : a.isText = false)
    (hs : ∀ s, a = .substitute s → s.pattern ≠ none) (hc : (tailStart l i c).any (meetsComment l) = false) (u : Text) :
    ∃ k, action (l ++ ';' :: u) i c = .ok (k, a) ∧ SamePlace l j k := by
  by_cases hspecial : ['{', '}', 's', 'y'].contains c = true
  · simp only [List.contains_cons, List.contains_nil, Bool.or_false, Bool.or_eq_true, beq_iff_eq] at hspecial
    rcases hspecial with rfl | rfl | rfl | rfl
    · cases h
      exact ⟨i, rfl, .refl hi⟩
    · cases h
      exact ⟨i, rfl, .refl hi⟩
    · have hpieces (k : Nat) (r : Option Text × Option Text) (hp : pieces l i = .ok (k, r)) :
          meetsComment l k = false := by
        rw [show tailStart l i 's' = (pieces l i).toOption.map (·.1) from rfl, hp] at hc
        exact hc
      obtain ⟨⟨j', s⟩, hr, h⟩ := map_eq_ok.1 h
      cases h
      obtain ⟨k, hk, hplace⟩ := substitution_extended hr (hs s rfl) hpieces u
      exact ⟨k, congrArg (Except.map _) hk, hplace⟩
    · have hsides (k : Nat) (r : Text × Text) (hp : sides l i = .ok (k, r)) : meetsComment l k = false := by
        rw [show tailStart l i 'y' = (sides l i).toOption.map (·.1) from rfl, hp] at hc
        exact hc
      obtain ⟨⟨j', y⟩, hr, h⟩ := map_eq_ok.1 h
      cases h
      obtain ⟨k, hk, hplace⟩ := transliteration_extended hr hsides u
      exact ⟨k, congrArg (Except.map _) hk, hplace⟩
  · rw [Bool.not_eq_true] at hspecial
    rw [action_of_ordinary hspecial] at h ⊢
    cases htext : textAction? c with
    | some f =>
      rw [htext] at h
      cases h
      rw [isText_of_textAction? htext] at ha
      cases ha
    | none =>
      rw [htext] at h
      rw [tailStart_of_ordinary hspecial l i htext] at hc
      obtain ⟨⟨j', word⟩, harg, h⟩ := bind_eq_ok.1 h
      obtain ⟨k, hk, hplace⟩ := argument_extended hi harg hc u
      obtain ⟨rfl, hw⟩ := worded_extended h k
      refine ⟨k, ?_, hplace⟩
      dsimp only
      rw [hk]
      exact hw

lemma function_eq {text : Text} (h : text[skipBlanks text i]? = some c) (hc : c ≠ '#') :
    function text i = (skipBlanks text i + 1, some c) := by
  obtain ⟨hlt, rfl⟩ := List.getElem?_eq_some_iff.1 h
  rw [function, List.drop_eq_getElem_cons hlt]
  exact if_neg hc

lemma function_extended (hi : i ≤ l.length) (u : Text) :
    function l i = (l.length, none) ∧ function (l ++ ';' :: u) i = (l.length + 1, some ';') ∨
      ∃ k c, function l i = (k, some c) ∧
        (c ≠ '#' → function (l ++ ';' :: u) i = (k, some c) ∧ k ≤ l.length) := by
  have hle := skipBlanks_le hi
  rw [function, function, skipBlanks_extended hi, List.drop_append_of_le_length hle]
  cases hd : l.drop (skipBlanks l i) with
  | nil =>
    have hend : skipBlanks l i = l.length := Nat.le_antisymm hle (List.drop_eq_nil_iff.1 hd)
    left
    rw [← hend]
    exact ⟨rfl, rfl⟩
  | cons c rest =>
    have hlt : skipBlanks l i < l.length := by
      rw [length_of_drop_eq_cons hd]
      omega
    right
    by_cases hc : c = '#'
    · exact ⟨_, c, if_pos hc, fun hne => absurd hc hne⟩
    · exact ⟨_, c, if_neg hc, fun _ => ⟨if_neg hc, hlt⟩⟩

def named (line : Text) (first second : Option Address) (negated : Bool) :
    Nat × Option Char → Reading (Nat × Option Command)
  | (i, some c) =>
    if c = '#' || c = ';' then
      if first.isSome then throw (.fault .unterminatedCommand) else pure (i, none)
    else if !isFunction c then throw (.fault (.unknownFunction c))
    else if !addressesFit c first second then throw (.fault .wrongAddressCount)
    else do
      let number ← get
      set (number + 1)
      let (i, a) ← Reading.lift (action line i c)
      pure (i, some ⟨number, first, second, negated, a, none, none⟩)
  | (i, none) => if first.isSome then throw (.fault .unterminatedCommand) else pure (i, none)

lemma command_eq {first second : Option Address} {negated : Bool} {line : Text}
    (h : addresses line 0 = .ok (i, first, second, negated)) (n : Nat) :
    command line n = named line first second negated (function line i) n := by
  rw [command, h, named.eq_def]
  rfl

lemma named_eq_ok {line : Text} {first second : Option Address} {negated : Bool} {d : Option Command} {n n' : Nat} :
    named line first second negated (i, some c) n = .ok (j, d) n' ↔
      (c = '#' ∨ c = ';') ∧ first = none ∧ j = i ∧ d = none ∧ n' = n ∨
        ¬(c = '#' ∨ c = ';') ∧ isFunction c = true ∧ addressesFit c first second = true ∧ n' = n + 1 ∧
          ∃ a, action line i c = .ok (j, a) ∧ d = some ⟨n, first, second, negated, a, none, none⟩ := by
  rw [named]
  by_cases hc : c = '#' ∨ c = ';'
  · rw [if_pos (by simpa using hc)]
    constructor
    · intro h
      cases first with
      | some a => cases h
      | none =>
        cases h
        exact .inl ⟨hc, rfl, rfl, rfl, rfl⟩
    · rintro (⟨-, rfl, rfl, rfl, rfl⟩ | ⟨hne, -⟩)
      · rfl
      · exact absurd hc hne
  · rw [if_neg (by simpa using hc), or_iff_right fun h => hc h.1]
    cases hfunction : isFunction c with
    | false =>
      refine iff_of_false (fun h => ?_) fun ⟨_, hf, _⟩ => ?_
      · cases h
      · cases hf
    | true =>
      cases hfit : addressesFit c first second with
      | false =>
        refine iff_of_false (fun h => ?_) fun ⟨_, _, hf, _⟩ => ?_
        · cases h
        · cases hf
      | true =>
        rw [if_neg (by simp), if_neg (by simp)]
        change (Reading.lift (action line i c) >>= _) (n + 1) = _ ↔ _
        cases haction : action line i c with
        | error e =>
          refine iff_of_false (fun h => ?_) fun ⟨_, _, _, _, a, ha, _⟩ => ?_
          · cases h
          · cases ha
        | ok r =>
          constructor
          · intro h
            cases h
            exact ⟨hc, rfl, rfl, rfl, r.2, rfl, rfl⟩
          · rintro ⟨-, -, -, rfl, a, ha, rfl⟩
            cases ha
            rfl

lemma command_extended {d : Option Command} {n n' : Nat} (h : command l n = .ok (i, d) n') (hc : readsComment l = false)
    (hopen : leavesAddressOpen l = false) (ha : ∀ c ∈ d, c.action.isText = false)
    (hs : ∀ c ∈ d, ∀ s, c.action = .substitute s → s.pattern ≠ none) (u : Text) :
    ∃ j, command (l ++ ';' :: u) n = .ok (j, d) n' ∧ SamePlace l i j := by
  rcases haddr : addresses l 0 with e | ⟨k, first, second, negated⟩
  · rw [command, haddr] at h
    cases h
  rw [command_eq haddr] at h
  rcases addresses_extended haddr hopen u with ⟨haddr', hk⟩ | hslash
  · rw [command_eq haddr']
    rcases function_extended hk u with ⟨hnone, hsemi⟩ | ⟨k', c, hsome, hsame⟩
    · rw [hnone] at h
      rw [hsemi]
      cases first with
      | some a => cases h
      | none =>
        cases h
        exact ⟨_, rfl, Nat.le_refl _, .inr ⟨rfl, rfl⟩⟩
    · have hcomment : c ≠ '#' ∧ (¬c = ';' → (tailStart l k' c).any (meetsComment l) = false) := by
        simpa [readsComment, haddr, hsome] using hc
      obtain ⟨hfunction, hle⟩ := hsame hcomment.1
      rw [hsome] at h
      rw [hfunction]
      rcases named_eq_ok.1 h with ⟨hsep, rfl, rfl, rfl, rfl⟩ | ⟨hsep, hf, hfit, rfl, a, haction, rfl⟩
      · exact ⟨_, named_eq_ok.2 (.inl ⟨hsep, rfl, rfl, rfl, rfl⟩), .refl hle⟩
      · have hend := hcomment.2 fun hc => hsep (.inr hc)
        obtain ⟨j, hj, hplace⟩ := action_extended hle haction (ha _ rfl) (hs _ rfl) hend u
        exact ⟨j, named_eq_ok.2 (.inr ⟨hsep, hf, hfit, rfl, a, hj, rfl⟩), hplace⟩
  · -- a slash is no letter of a command
    rw [function_eq (skipBlanks_eq_self (by decide) hslash ▸ hslash) (by decide)] at h
    rcases named_eq_ok.1 h with ⟨hsep, -⟩ | ⟨-, hf, -⟩
    · exact absurd hsep (by decide)
    · exact absurd hf (by decide)

end

lemma lineCommands_semicolon (u : Text) (n : Nat) : lineCommands (';' :: u) n = lineCommands u n := by
  have hnil : command [] n = .ok (0, none) n := rfl
  obtain ⟨j, hj, -, hplace⟩ := command_extended hnil rfl rfl (by simp) (by simp) u
  have hdrop : u.drop (j - 1) = u := by
    obtain rfl | ⟨-, rfl⟩ := hplace <;> rfl
  rw [lineCommands]
  refine (Outcome.bind_ok hj).trans ?_
  dsimp only
  rw [hdrop]
  change (id <$> lineCommands u) n = _
  rw [id_map]

lemma places_cons {c : Char} {rest : Text} {i n n' : Nat} {d : Option Command}
    (h : command (c :: rest) n = .ok (i, d) n') : places (c :: rest) = (c :: rest) :: places (rest.drop (i - 1)) := by
  have hcount := uncounted_command (c :: rest) n 0
  rw [places]
  rw [h] at hcount
  cases h₀ : command (c :: rest) 0 with
  | ok r k =>
    rw [h₀] at hcount
    obtain rfl : i = r.1 := congrArg Prod.fst (Except.ok.inj hcount)
    rfl
  | error e k =>
    rw [h₀] at hcount
    cases hcount

-- The induction follows the reading of the line, command by command; the last one may take the semicolon.
lemma lineCommands_extended {l : Text} {cs : List Command} {n n' : Nat} (h : lineCommands l n = .ok cs n')
    (hplaces : ∀ place ∈ places l, readsComment place = false ∧ leavesAddressOpen place = false)
    (ha : ∀ c ∈ cs, c.action.isText = false) (hs : ∀ c ∈ cs, ∀ s, c.action = .substitute s → s.pattern ≠ none)
    (u : Text) :
    lineCommands (l ++ ';' :: u) n = ((cs ++ ·) <$> lineCommands u) n' := by
  induction l using lineCommands.induct generalizing cs n with
  | case1 =>
    rw [lineCommands] at h
    cases h
    rw [List.nil_append, lineCommands_semicolon]
    change _ = (id <$> lineCommands u) n'
    rw [id_map]
  | case2 c rest ih =>
    rw [lineCommands] at h
    obtain ⟨⟨i, d⟩, n₁, hcommand, h⟩ := Outcome.bind_eq_ok.1 h
    obtain ⟨ds, n₂, hmore, h⟩ := Outcome.bind_eq_ok.1 h
    cases h
    rw [places_cons hcommand, List.forall_mem_cons] at hplaces
    obtain ⟨⟨hcomment, hopen⟩, hplaces⟩ := hplaces
    have hd {x : Command} (hx : x ∈ d) : x ∈ d.toList ++ ds := List.mem_append_left _ (Option.mem_toList.2 hx)
    obtain ⟨j, hj, hi, hplace⟩ := command_extended hcommand hcomment hopen (fun x hx => ha x (hd hx))
      (fun x hx => hs x (hd hx)) u
    have hrest : lineCommands ((rest ++ ';' :: u).drop (j - 1)) n₁ = ((ds ++ ·) <$> lineCommands u) n' := by
      rw [List.length_cons] at hi hplace
      rcases hplace with rfl | ⟨rfl, rfl⟩
      · rw [List.drop_append_of_le_length (Nat.sub_le_of_le_add hi)]
        exact ih j hmore hplaces (fun x hx => ha x (List.mem_append_right _ hx))
          fun x hx => hs x (List.mem_append_right _ hx)
      · rw [Nat.add_sub_cancel, List.drop_length, lineCommands] at hmore
        cases hmore
        rw [Nat.add_sub_cancel, List.drop_length_add_append]
        change lineCommands u n' = (id <$> lineCommands u) n'
        rw [id_map]
    rw [List.cons_append, lineCommands]
    refine (Outcome.bind_ok hj).trans ((Outcome.bind_of_eq hrest).trans ?_)
    simp

/-- A line that can be read by itself, without texts, comments, open addresses and missing patterns, and any other line
read after it: it does not matter whether the end of the line or a semicolon stands between them. -/
theorem semicolon_separates_as_newline {l : Text} {cs : List Command} {n n' : Nat} (h : lineCommands l n = .ok cs n')
    (htext : ∀ c ∈ cs, c.action.isText = false)
    (hpattern : ∀ c ∈ cs, ∀ s, c.action = .substitute s → s.pattern ≠ none)
    (hcomment : ∀ place ∈ places l, readsComment place = false)
    (haddress : ∀ place ∈ places l, leavesAddressOpen place = false) (l' : Text) :
    program [l ++ ';' :: l'] n = program [l, l'] n := by
  have hline := lineCommands_extended h (fun place hp => ⟨hcomment place hp, haddress place hp⟩) htext hpattern l'
  have hcommands : commands [l ++ ';' :: l'] n = commands [l, l'] n := by
    simp only [commands, pure_bind, List.append_nil, bind_pure]
    rw [hline, Outcome.bind_ok h]
    simp
  rw [program, program, Outcome.bind_of_eq hcommands]

def sampleSemicolons : Text := ['/', ';', '/', 's', ';', 'a', ';', 'b', ';', 'w', ' ', 'f']

def sampleSubstitute : Command :=
  ⟨1, some (.regexp [';'] false none), none, false,
    .substitute ⟨some ['a'], ['b'], 1, false, false, true, ['f'], .pending⟩, some 1, none⟩

theorem semicolon_separates_sampleSemicolons :
    ∃ n, program [sampleSemicolons ++ [';', 'p']] 1 = program [sampleSemicolons, ['p']] 1 ∧
      program [sampleSemicolons, ['p']] 1 = .ok [sampleSubstitute, ⟨2, none, none, false, .print, none, none⟩] n := by
  obtain ⟨n, hp⟩ : ∃ n, program [sampleSemicolons, ['p']] 1 =
      .ok [sampleSubstitute, ⟨2, none, none, false, .print, none, none⟩] n := Outcome.of_result? (by decide +kernel)
  obtain ⟨n', hl⟩ : ∃ n', lineCommands sampleSemicolons 1 = .ok [{ sampleSubstitute with next := none }] n' :=
    Outcome.of_result? (by decide +kernel)
  have hpattern : ∀ c ∈ [{ sampleSubstitute with next := none }], ∀ s, c.action = .substitute s → s.pattern ≠ none := by
    intro c hc s hs
    rw [List.mem_singleton.1 hc] at hs
    cases hs
    decide
  exact ⟨n, semicolon_separates_as_newline hl (by decide) hpattern (by decide +kernel) (by decide +kernel) ['p'], hp⟩

end Script

end StreamEditor
