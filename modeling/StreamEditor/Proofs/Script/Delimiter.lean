import StreamEditor.Proofs.Dialect.Escaped
import StreamEditor.Proofs.Output.Shown
import StreamEditor.Proofs.Range.Try
import StreamEditor.Proofs.Script.Single

/-! Delimiters escaped in the regexps that they enclose. The line is cut in the right places, but the backslash stays in
the regexp, where it can make an operator of the delimiter. -/

namespace StreamEditor

open Edit Outcome

def addressLine (d : Char) (re : Text) (c : Char) : Text := '\\' :: d :: (re ++ [d, c])

def substituteLine (d : Char) (re new stop : Text) : Text := 's' :: d :: (re ++ d :: (new ++ d :: stop))

namespace Script

section

variable {d : Char} {u v : Text}

lemma regexpEnd_word (hu : ∀ c ∈ u, c ≠ d ∧ c ≠ '\\' ∧ c ≠ '[') (t : Text) :
    regexpEnd d (u ++ t) = (regexpEnd d t).map (·.map (· + u.length)) := by
  induction u with
  | nil =>
    rcases h : regexpEnd d t with e | ⟨_ | n⟩ <;> simp [h, Except.map]
  | cons c u ih =>
    obtain ⟨⟨hd, hs, hb⟩, hu'⟩ := List.forall_mem_cons.1 hu
    rw [List.cons_append, regexpEnd, if_neg hd, if_neg hs, if_neg hb, ih hu']
    rcases regexpEnd d t with e | ⟨_ | n⟩ <;> simp [Except.map, Nat.add_assoc]

lemma regexpEnd_escape (hd : d ≠ '\\') (c : Char) (t : Text) :
    regexpEnd d ('\\' :: c :: t) = (regexpEnd d t).map (·.map (· + 2)) := by
  rw [regexpEnd, if_neg (Ne.symm hd), if_pos rfl]
  rfl

lemma regexpEnd_escaped (hd : d ≠ '\\') (hu : ∀ c ∈ u, c ≠ d ∧ c ≠ '\\' ∧ c ≠ '[')
    (hv : ∀ c ∈ v, c ≠ d ∧ c ≠ '\\' ∧ c ≠ '[') (rest : Text) :
    regexpEnd d (u ++ '\\' :: d :: v ++ d :: rest) = .ok (some (u ++ '\\' :: d :: v).length) := by
  have hend : regexpEnd d (d :: rest) = .ok (some 0) := by rw [regexpEnd, if_pos rfl]
  rw [List.append_assoc, regexpEnd_word hu, List.cons_append, List.cons_append, regexpEnd_escape hd, regexpEnd_word hv,
    hend]
  simp only [Except.map, Option.map_some, List.length_append, List.length_cons]
  congr 2
  omega

lemma delimiter?_append_self {new : Text} (hnew : ∀ c ∈ new, c ≠ '\\' ∧ c ≠ d) (stop : Text) :
    delimiter? d (new ++ d :: stop) = some new.length := by
  induction new with
  | nil => cases stop <;> simp [delimiter?]
  | cons c new ih =>
    obtain ⟨⟨hs, hd⟩, hnew'⟩ := List.forall_mem_cons.1 hnew
    have hrest := ih hnew'
    obtain ⟨e, t, ht⟩ : ∃ e t, new ++ d :: stop = e :: t := List.exists_cons_of_ne_nil (by simp)
    rw [List.cons_append, ht, delimiter?, if_neg hd, if_neg hs, ← ht, hrest]
    rfl

end

section

variable {d : Char} {re new stop : Text}

lemma replacement_substituteLine (hnew : ∀ c ∈ new, c ≠ '\\' ∧ c ≠ d) (stop : Text) :
    replacement (substituteLine d re new stop) (re.length + 3) d = .ok (re.length + new.length + 4, some new) := by
  have hdrop : (substituteLine d re new stop).drop (re.length + 3) = new ++ d :: stop := by
    simp [substituteLine]
  rw [replacement, if_neg (by simp [substituteLine]), hdrop, delimiter?_append_self hnew]
  simp only [List.take_left]
  congr 2
  omega

lemma tail_substituteLine (hstop : stop = [] ∨ stop = [';']) :
    tail (substituteLine d re new stop) (re.length + new.length + 4) =
      .ok ((substituteLine d re new stop).length, []) := by
  have hlength : (substituteLine d re new stop).length = re.length + new.length + 4 + stop.length := by
    simp [substituteLine]
    omega
  have hdrop : (substituteLine d re new stop).drop (re.length + new.length + 4) = stop := by
    rw [substituteLine, show re.length + new.length + 4 = (re.length + (1 + (new.length + 1))) + 1 + 1 by omega,
      List.drop_succ_cons, List.drop_succ_cons, List.drop_length_add_append, Nat.add_comm 1, List.drop_succ_cons,
      List.drop_length_add_append]
    rfl
  rw [tail, if_neg (by omega), hdrop, hlength]
  rcases hstop with rfl | rfl <;> rfl

end

section

variable {d : Char} {re : Text} (hread : ∀ rest, regexpEnd d (re ++ d :: rest) = .ok (some re.length))
include hread

lemma regexp_delimited {text rest : Text} (htext : text.drop 1 = d :: (re ++ d :: rest)) :
    regexp text 1 none = .ok (re.length + 3, some re) := by
  rw [regexp, htext]
  simp only [Option.all_none, if_true, hread, bind, Except.bind, List.take_left]
  congr 2
  omega

lemma command_addressLine {c : Char} {a : Action} (ha : plainAction? c = some a) (n : Nat) :
    command (addressLine d re c) n = .ok ((addressLine d re c).length,
      some ⟨n, some (.regexp re false none), none, false, a, none, none⟩) (n + 1) := by
  obtain ⟨-, -, hcase, -⟩ := of_plainAction? ha
  have hletter : (addressLine d re c)[re.length + 3]? = some c := by simp [addressLine]
  have haddress : address (addressLine d re c) 0 = .ok (re.length + 3, some (.regexp re false none)) := by
    have hregexp : regexp (addressLine d re c) 1 none = .ok (re.length + 3, some re) :=
      regexp_delimited hread rfl
    have hnumber : number (addressLine d re c) 0 = .ok (0, none) := rfl
    have hfirst : (addressLine d re c)[0]? = some '\\' := rfl
    simp [address, hnumber, hfirst, hregexp, hletter, hcase, bind, Except.bind]
  exact command_plain (by simp [addressLine]) (skipBlanks_eq_self (c := '\\') (by decide) rfl) haddress hletter ha n

lemma command_substituteLine {new stop : Text} (hnew : ∀ c ∈ new, c ≠ '\\' ∧ c ≠ d) (hstop : stop = [] ∨ stop = [';'])
    (n : Nat) :
    command (substituteLine d re new stop) n = .ok ((substituteLine d re new stop).length,
      some ⟨n, none, none, false, .substitute ⟨some re, new, 1, false, false, false, [], .pending⟩, none, none⟩)
      (n + 1) := by
  have hregexp : regexp (substituteLine d re new stop) 1 none = .ok (re.length + 3, some re) :=
    regexp_delimited hread rfl
  have hbefore : charBefore (substituteLine d re new stop) (re.length + 3) = some d := by
    simp [charBefore, substituteLine]
  have haction : action (substituteLine d re new stop) 1 's' = .ok ((substituteLine d re new stop).length,
      .substitute ⟨some re, new, 1, false, false, false, [], .pending⟩) := by
    change (substitution _ 1).map _ = _
    simp only [substitution_eq, pieces, hregexp, hbefore, replacement_substituteLine hnew stop,
      tail_substituteLine hstop, bind, Except.bind]
    rfl
  have haddresses : addresses (substituteLine d re new stop) 0 = .ok (0, none, none, false) := rfl
  rw [command_eq haddresses]
  exact named_eq_ok.2 (.inr ⟨by decide, by decide, rfl, rfl, _, haction, rfl⟩)

end

end Script

def Command.SelectsByText (w : Text) (c : Command) : Prop :=
  ∀ i m, ∃ m', c.selected i m = .ok (decide (w <:+: m.space)) m'

def Command.ReplacesFirst (w new : Text) (c : Command) : Prop :=
  ∀ i m, ∃ m', c.attempt i m = .ok (true, .onward) m' ∧ m'.space = Text.replaceFirst w new m.space ∧
    m'.editor.substituted = (m.editor.substituted || decide (w <:+: m.space))

def LoadsTo (line : Text) (Q : Command → Prop) : Prop :=
  ∀ m : Machine, m.editor.extended = false → m.deferred = false →
    ∃ m₁ c, loadLines [line] m = .ok () m₁ ∧ m₁.editor.program = some [c] ∧ Q c

section

variable {m : Machine} {d : Char} {re : Text}

lemma pack_addressLine {c : Char} {a : Action} (ha : Script.plainAction? c = some a) :
    Script.pack [addressLine d re c] = [addressLine d re c] := by
  obtain ⟨-, hspace, -, -, -, -, -, hcontinues, -⟩ := Script.of_plainAction? ha
  have hline : addressLine d re c = '\\' :: d :: (re ++ [d]) ++ [c] := by simp [addressLine]
  refine Script.pack_single (Script.dropComment_cons (by decide) (by decide) _) ?_ ?_
  · rw [hline, Text.trimRight_concat hspace]
  · rw [hline, Script.continues, List.getLast?_concat]
    simpa using hcontinues

lemma pack_substituteLine {new stop : Text} (hd : d ≠ '\\')
    (hstop : stop = [] ∧ Text.isWhiteSpace d = false ∨ stop = [';']) :
    Script.pack [substituteLine d re new stop] = [substituteLine d re new stop] := by
  obtain ⟨t, e, hline, hspace, hcontinues⟩ : ∃ t e, substituteLine d re new stop = t ++ [e] ∧
      Text.isWhiteSpace e = false ∧ e ≠ '\\' := by
    rcases hstop with ⟨rfl, hspace⟩ | rfl
    · exact ⟨'s' :: d :: (re ++ d :: new), d, by simp [substituteLine], hspace, hd⟩
    · exact ⟨'s' :: d :: (re ++ d :: (new ++ [d])), ';', by simp [substituteLine], by decide, by decide⟩
  refine Script.pack_single (Script.dropComment_cons (by decide) (by decide) _) ?_ ?_
  · rw [hline, Text.trimRight_concat hspace]
  · rw [hline, Script.continues, List.getLast?_concat]
    simpa using hcontinues

lemma selected_regexp {x : Regexp} {found : Bool} (h : x.search m.space = .ok found) (n i : Nat) (a : Action) :
    Command.selected i ⟨n, some (.regexp re false (some x)), none, false, a, none, none⟩ m =
      .ok found (m.recalling (some x)) := by
  have hselected : Command.selected i ⟨n, some (.regexp re false (some x)), none, false, a, none, none⟩ m =
      .ok (found != false) (m.recalling (some x)) := bind_ok (selects_regexp h re false)
  rwa [Bool.bne_false] at hselected

abbrev substituteFirst (n : Nat) (template : Text) (x : Regexp) : Command :=
  ⟨n, none, none, false, .substitute ⟨some x.pattern, template, 1, false, false, false, [], .own x⟩, none, none⟩

lemma attempt_substituteFirst {x : Regexp} {template : Text} {made : Option Text}
    (h : x.substitute? template 1 m.space = .ok made) (n i : Nat) :
    ∃ m', (substituteFirst n template x).attempt i m = .ok (true, .onward) m' ∧ m'.space = made.getD m.space ∧
      m'.editor.substituted = (m.editor.substituted || made.isSome) := by
  let s : Substitution := ⟨some x.pattern, template, 1, false, false, false, [], .own x⟩
  have hselected : (substituteFirst n template x).selected i m = .ok true m := rfl
  have hexecute : s.execute m = s.replace x (m.recalling (some x)) := by
    rw [Substitution.execute_eq, bind_ok (show s.choose m = .ok x (m.recalling (some x)) from rfl)]
  obtain ⟨m', hreplace, hspace, hflag⟩ : ∃ m', s.replace x (m.recalling (some x)) = .ok () m' ∧
      m'.space = made.getD m.space ∧ m'.editor.substituted = (m.editor.substituted || made.isSome) := by
    rw [Substitution.replace, bind_ok (show Edit.pattern (m.recalling (some x)) = .ok m.space _ from rfl), h,
      bind_ok (show lift (.ok made) (m.recalling (some x)) = .ok made _ from rfl)]
    cases made with
    | none => exact ⟨_, rfl, rfl, (Bool.or_false _).symm⟩
    | some t => exact ⟨_, rfl, rfl, (Bool.or_true _).symm⟩
  have hperform : (substituteFirst n template x).perform i m = .ok .onward m' := bind_ok (hexecute.trans hreplace)
  exact ⟨m', (bind_ok hselected).trans (bind_ok hperform), hspace, hflag⟩

end

section

variable {mode : RegexpMode} {re : Text} {n : Nat}

lemma prepareAction_plain {c : Char} {a : Action} (ha : Script.plainAction? c = some a) {command : Command}
    (hc : command.action = a) : command.prepareAction mode = .done command := by
  have hmem := List.mem_of_find?_eq_some ha
  simp only [List.mem_cons, List.not_mem_nil, or_false] at hmem
  rw [Command.prepareAction, hc]
  rcases hmem with rfl | rfl | rfl | rfl | rfl | rfl | rfl | rfl | rfl | rfl | rfl | rfl | rfl | rfl <;> rfl

lemma prepare_addressed {c : Char} {a : Action} (ha : Script.plainAction? c = some a) {x : Option Regexp}
    (hx : Regexp.ofScript mode.deferred mode.extended false re = .ok x) :
    Command.prepare mode ⟨n, some (.regexp re false none), none, false, a, none, none⟩ =
      .done ⟨n, some (.regexp re false x), none, false, a, none, none⟩ := by
  simp only [Command.prepare, Command.prepareFirst, Command.prepareSecond, Address.prepare, hx, Attempt.andThen,
    Attempt.done]
  exact prepareAction_plain ha rfl

lemma prepare_addressed_failure {a : Action} {e : Failure}
    (hx : Regexp.ofScript mode.deferred mode.extended false re = .error e) :
    (Command.prepare mode ⟨n, some (.regexp re false none), none, false, a, none, none⟩).failure = some e := by
  simp [Command.prepare, Command.prepareFirst, Address.prepare, hx, Attempt.andThen]

lemma prepare_substituting {x : Regexp} {new : Text}
    (hx : Regexp.ofScript mode.deferred mode.extended false re = .ok (some x)) :
    Command.prepare mode ⟨n, none, none, false,
        .substitute ⟨some re, new, 1, false, false, false, [], .pending⟩, none, none⟩ =
      .done (substituteFirst n (Dialect.convertReplacement new) x) := by
  simp [Command.prepare, Command.prepareFirst, Command.prepareSecond, Command.prepareAction, Substitution.prepare, hx,
    Attempt.andThen, Attempt.done]

lemma prepare_substituting_failure {new : Text} {e : Failure}
    (hx : Regexp.ofScript mode.deferred mode.extended false re = .error e) :
    (Command.prepare mode ⟨n, none, none, false,
      .substitute ⟨some re, new, 1, false, false, false, [], .pending⟩, none, none⟩).failure = some e := by
  simp [Command.prepare, Command.prepareFirst, Command.prepareSecond, Command.prepareAction, Substitution.prepare, hx,
    Attempt.andThen, Attempt.done]

end

def LoadsWith (line re : Text) (made : Nat → Regexp → Command) : Prop :=
  ∀ m : Machine, m.editor.extended = false → m.deferred = false →
    (∀ x, Regexp.ofScript false false false re = .ok (some x) →
      ∃ m₁, loadLines [line] m = .ok () m₁ ∧ m₁.editor.program = some [made m.nextNumber x]) ∧
    ∀ e, Regexp.ofScript false false false re = .error e → ∀ m₁, loadLines [line] m ≠ .ok () m₁

section

variable {d : Char} {re : Text} (hread : ∀ rest, Script.regexpEnd d (re ++ d :: rest) = .ok (some re.length))
include hread

lemma loadsWith_addressLine {c : Char} {a : Action} (ha : Script.plainAction? c = some a) :
    LoadsWith (addressLine d re c) re fun n x => ⟨n, some (.regexp re false (some x)), none, false, a, none, none⟩ := by
  intro m hbasic hdeferred
  have hprogram := Script.program_single (List.cons_ne_nil _ _)
    (Script.command_addressLine hread ha m.nextNumber) (Script.link_plain ha _ _ _ _)
  constructor
  · intro x hx
    refine load_single (pack_addressLine ha) hprogram (prepare_addressed ha (by rwa [hbasic, hdeferred])) ?_
    have hmem := List.mem_of_find?_eq_some ha
    simp only [List.mem_cons, List.not_mem_nil, or_false] at hmem
    rcases hmem with rfl | rfl | rfl | rfl | rfl | rfl | rfl | rfl | rfl | rfl | rfl | rfl | rfl | rfl <;> rfl
  · intro e he
    exact not_load_single (pack_addressLine ha) hprogram (prepare_addressed_failure (by rwa [hbasic, hdeferred]))

lemma loadsWith_substituteLine {new stop : Text} (hd : d ≠ '\\') (hnew : ∀ c ∈ new, c ≠ '\\' ∧ c ≠ d)
    (hstop : stop = [] ∧ Text.isWhiteSpace d = false ∨ stop = [';']) :
    LoadsWith (substituteLine d re new stop) re fun n x => substituteFirst n (Dialect.convertReplacement new) x := by
  intro m hbasic hdeferred
  have hprogram := Script.program_single (List.cons_ne_nil _ _)
    (Script.command_substituteLine hread hnew (hstop.imp_left And.left) m.nextNumber) rfl
  constructor
  · intro x hx
    exact load_single (pack_substituteLine hd hstop) hprogram (prepare_substituting (by rwa [hbasic, hdeferred])) rfl
  · intro e he
    exact not_load_single (pack_substituteLine hd hstop) hprogram
      (prepare_substituting_failure (by rwa [hbasic, hdeferred]))

end

section

variable {line re : Text} {made : Nat → Regexp → Command} {Q : Command → Prop}

lemma LoadsWith.loadsTo (h : LoadsWith line re made) {x : Regexp}
    (hx : Regexp.ofScript false false false re = .ok (some x)) (hQ : ∀ n, Q (made n x)) : LoadsTo line Q := by
  intro m hbasic hdeferred
  obtain ⟨m₁, hload, hprogram⟩ := (h m hbasic hdeferred).1 x hx
  exact ⟨m₁, _, hload, hprogram, hQ _⟩

lemma LoadsWith.of_loadsTo (h : LoadsWith line re made) (hQ : LoadsTo line Q) :
    (∀ e, Regexp.ofScript false false false re ≠ .error e) ∧
      ∀ x, Regexp.ofScript false false false re = .ok (some x) → ∃ n, Q (made n x) := by
  obtain ⟨m₁, c, hload, hprogram, hc⟩ := hQ { editor := {}, store := [] } rfl rfl
  obtain ⟨hok, herror⟩ := h { editor := {}, store := [] } rfl rfl
  refine ⟨fun e he => herror e he m₁ hload, fun x hx => ?_⟩
  obtain ⟨m₂, hload', hprogram'⟩ := hok x hx
  rw [hload] at hload'
  cases hload'
  rw [hprogram] at hprogram'
  cases hprogram'
  exact ⟨_, hc⟩

end

section

variable {d : Char} {u v : Text} (ha : d.isAlphanum = false) (hdigit : Text.isDigit d = false) (hd : d ≠ '\\')
  (hne : u ≠ []) (huv : ∀ e ∈ u ++ v, Atom.isSpecial e = false ∧ e ≠ d)
include ha hdigit hd hne huv

omit ha hdigit hne in
lemma regexpEnd_of_ordinary (rest : Text) :
    Script.regexpEnd d (u ++ '\\' :: d :: v ++ d :: rest) = .ok (some (u ++ '\\' :: d :: v).length) := by
  have hword : ∀ e ∈ u ++ v, e ≠ d ∧ e ≠ '\\' ∧ e ≠ '[' := by
    intro e he
    obtain ⟨hspecial, hdelimiter⟩ := huv e he
    refine ⟨hdelimiter, ?_, ?_⟩ <;> rintro rfl <;> cases hspecial
  obtain ⟨hu, hv⟩ := List.forall_mem_append.1 hword
  exact Script.regexpEnd_escaped hd hu hv rest

lemma addressLine_selects_iff {c : Char} {a : Action} (hc : Script.plainAction? c = some a) :
    LoadsTo (addressLine d (u ++ '\\' :: d :: v) c) (Command.SelectsByText (u ++ d :: v)) ↔
      isOperatorEscaped d = false := by
  have hloads := loadsWith_addressLine (regexpEnd_of_ordinary hd huv) hc
  obtain ⟨hu, hv⟩ := List.forall_mem_append.1 fun e he => (huv e he).1
  constructor
  · intro hlaw
    obtain ⟨hok, hselects⟩ := hloads.of_loadsTo hlaw
    by_contra hoperator
    rcases ofScript_escaped_operator hu hv hne (by simpa using hoperator) with ⟨e, he⟩ | ⟨x, s, hx, hsearch, hinfix⟩
    · exact hok e he
    · obtain ⟨n, hselects⟩ := hselects x hx
      obtain ⟨m, rfl⟩ : ∃ m : Machine, m.space = s := ⟨{ editor := { pattern := some s }, store := [] }, rfl⟩
      obtain ⟨m', hselected⟩ := hselects 0 m
      rw [selected_regexp hsearch, decide_eq_false hinfix] at hselected
      cases hselected
  · intro hliteral
    obtain ⟨p, hp⟩ := ofScript_escaped_literal hu hv ha hdigit hliteral
    exact hloads.loadsTo hp fun n i m => ⟨_, selected_regexp (search_literal (by simp) p m.space) n i a⟩

lemma substituteLine_replaces_iff {new stop : Text} (hnew : ∀ e ∈ new, e ≠ '\\' ∧ e ≠ '&' ∧ e ≠ d)
    (hstop : stop = [] ∧ Text.isWhiteSpace d = false ∨ stop = [';']) :
    LoadsTo (substituteLine d (u ++ '\\' :: d :: v) new stop) (Command.ReplacesFirst (u ++ d :: v) new) ↔
      isOperatorEscaped d = false := by
  have hloads := loadsWith_substituteLine (regexpEnd_of_ordinary hd huv) hd
    (fun e he => ⟨(hnew e he).1, (hnew e he).2.2⟩) hstop
  have hquote := quoteReplacement_eq_self fun e he => ⟨(hnew e he).1, (hnew e he).2.1⟩
  obtain ⟨hu, hv⟩ := List.forall_mem_append.1 fun e he => (huv e he).1
  constructor
  · intro hlaw
    obtain ⟨hok, hreplaces⟩ := hloads.of_loadsTo hlaw
    by_contra hoperator
    rcases ofScript_escaped_operator hu hv hne (by simpa using hoperator) with ⟨e, he⟩ | ⟨x, s, hx, hsearch, hinfix⟩
    · exact hok e he
    · obtain ⟨n, hreplaces⟩ := hreplaces x hx
      obtain ⟨m, rfl, hclean⟩ : ∃ m : Machine, m.space = s ∧ m.editor.substituted = false :=
        ⟨{ editor := { pattern := some s }, store := [] }, rfl, rfl⟩
      obtain ⟨t, ht⟩ := exists_substitute?_one new hx hsearch
      rw [hquote] at ht
      obtain ⟨m₁, hdone, -, hset⟩ := attempt_substituteFirst ht n 0
      obtain ⟨m₂, hattempt, -, hflag⟩ := hreplaces 0 m
      rw [hdone] at hattempt
      cases hattempt
      rw [hset, hclean, decide_eq_false hinfix] at hflag
      cases hflag
  · intro hliteral
    obtain ⟨p, hp⟩ := ofScript_escaped_literal hu hv ha hdigit hliteral
    refine hloads.loadsTo hp fun n i m => ?_
    have hmade := substitute?_one_literal p new m.space (w := u ++ d :: v) (by simp)
    rw [hquote] at hmade
    obtain ⟨m', hattempt, hspace, hflag⟩ := attempt_substituteFirst hmade n i
    refine ⟨m', hattempt, ?_, ?_⟩
    · rw [hspace]
      split
      · rfl
      · rename_i hinfix
        exact (replaceFirst_eq_self new m.space (by simp) hinfix).symm
    · rw [hflag]
      split <;> simp_all

end

/-- An escaped delimiter stands for itself between two words, in an address and in a substitution, if and only if the
backslash does not make it an operator. White space as a delimiter needs a semicolon after the last one, for it is
dropped at the end of a line. -/
theorem escaped_delimiter_stands_for_itself_iff {d c : Char} {u v new stop : Text} {a : Action}
    (ha : d.isAlphanum = false) (hdigit : Text.isDigit d = false) (hd : d ≠ '\\') (hne : u ≠ [])
    (huv : ∀ e ∈ u ++ v, Atom.isSpecial e = false ∧ e ≠ d) (hnew : ∀ e ∈ new, e ≠ '\\' ∧ e ≠ '&' ∧ e ≠ d)
    (hc : Script.plainAction? c = some a) (hstop : stop = [] ∧ Text.isWhiteSpace d = false ∨ stop = [';']) :
    (LoadsTo (addressLine d (u ++ '\\' :: d :: v) c) (Command.SelectsByText (u ++ d :: v)) ↔
      d ∉ ['(', ')', '|', '+', '?']) ∧
    (LoadsTo (substituteLine d (u ++ '\\' :: d :: v) new stop) (Command.ReplacesFirst (u ++ d :: v) new) ↔
      d ∉ ['(', ')', '|', '+', '?']) := by
  have hoperator : isOperatorEscaped d = false ↔ d ∉ ['(', ')', '|', '+', '?'] := by
    rw [isOperatorEscaped, List.contains_eq_mem, decide_eq_false_iff_not]
  rw [← hoperator]
  exact ⟨addressLine_selects_iff ha hdigit hd hne huv hc, substituteLine_replaces_iff ha hdigit hd hne huv hnew hstop⟩

theorem escaped_brace_stands_for_itself :
    LoadsTo (addressLine '{' ['a', '\\', '{', 'b'] 'p') (Command.SelectsByText ['a', '{', 'b']) ∧
      LoadsTo (substituteLine '{' ['a', '\\', '{', 'b'] ['X'] []) (Command.ReplacesFirst ['a', '{', 'b'] ['X']) := by
  have hwords : ∀ e ∈ ['a'] ++ ['b'], Atom.isSpecial e = false ∧ e ≠ '{' := by simp [Atom.isSpecial]
  have hnew : ∀ e ∈ ['X'], e ≠ '\\' ∧ e ≠ '&' ∧ e ≠ '{' := by simp
  obtain ⟨haddress, hsubstitute⟩ := escaped_delimiter_stands_for_itself_iff (c := 'p') rfl (by decide) (by decide)
    (by decide) hwords hnew rfl (.inl ⟨rfl, by decide⟩)
  exact ⟨haddress.2 (by decide), hsubstitute.2 (by decide)⟩

theorem escaped_bar_does_not_stand_for_itself :
    ¬ LoadsTo (substituteLine '|' ['a', '\\', '|', 'b'] ['X'] []) (Command.ReplacesFirst ['a', '|', 'b'] ['X']) := by
  have hwords : ∀ e ∈ ['a'] ++ ['b'], Atom.isSpecial e = false ∧ e ≠ '|' := by simp [Atom.isSpecial]
  have hnew : ∀ e ∈ ['X'], e ≠ '\\' ∧ e ≠ '&' ∧ e ≠ '|' := by simp
  intro hlaw
  cases (substituteLine_replaces_iff rfl (by decide) (by decide) (by decide) hwords hnew (.inl ⟨rfl, by decide⟩)).1 hlaw

end StreamEditor
