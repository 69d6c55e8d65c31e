import StreamEditor.Proofs.Regex.Enumeration
import StreamEditor.Regexp

/-! Which occurrences a substitution replaces. A number counts all of them; without a number those are left out that
are empty and start where the one before ends. -/

namespace StreamEditor

open Regex

inductive Cuts : Nat → Text → List Occurrence → List Text → Prop
  | whole (pos : Nat) (rest : Text) : Cuts pos rest [] [rest]
  | part {pos : Nat} {gap rest : Text} {o : Occurrence} {os : List Occurrence} {gaps : List Text} :
      o.start = pos + gap.length → o.stop = o.start + o.text.length → Cuts o.stop rest os gaps →
      Cuts pos (gap ++ (o.text ++ rest)) (o :: os) (gap :: gaps)

def fill : List Text → List Text → Text
  | gap :: gaps, t :: ts => gap ++ (t ++ fill gaps ts)
  | gaps, _ => gaps.flatten

def Occurrence.clings (previous : Option Occurrence) (o : Occurrence) : Bool :=
  o.isEmpty && previous.any (·.stop = o.start)

def Template.put (t : Template) (previous : Option Occurrence) (o : Occurrence) : Text :=
  if o.clings previous then [] else t.expand o

def Touching (os : List Occurrence) : Prop := ∃ p o, [p, o] <:+: os ∧ o.clings (some p) = true

section

variable {pos : Nat} {rest : Text} {os : List Occurrence} {gaps : List Text}

lemma Cuts.bounds (h : Cuts pos rest os gaps) : ∀ o ∈ os, pos ≤ o.start ∧ o.start ≤ o.stop := by
  induction h with
  | whole pos rest => simp
  | part hstart hstop _ ih =>
    refine List.forall_mem_cons.2 ⟨by omega, fun o ho => ?_⟩
    have := ih o ho
    omega

lemma Cuts.eq_fill (h : Cuts pos rest os gaps) : rest = fill gaps (os.map Occurrence.text) := by
  induction h with
  | whole pos rest => simp [fill]
  | part _ _ _ ih =>
    rw [List.map_cons, fill, ← ih]

lemma Cuts.cons {c : Char} {cs : Text} (h : Cuts (pos + 1) cs os gaps) : ∃ gaps', Cuts pos (c :: cs) os gaps' := by
  cases h with
  | whole _ _ => exact ⟨_, .whole pos (c :: cs)⟩
  | @part _ gap rest o os gaps hstart hstop h =>
    have hstart' : o.start = pos + (c :: gap).length := by
      rw [hstart, List.length_cons]
      omega
    exact ⟨(c :: gap) :: gaps, .part hstart' hstop h⟩

lemma Regex.Enumerates.cuts {ignoreCase : Bool} {r : Regex} {advance : Bool}
    (h : Enumerates ignoreCase r rest pos advance os) : ∃ gaps, Cuts pos rest os gaps := by
  induction h with
  | done _ => exact ⟨_, .whole _ _⟩
  | skip _ _ ih =>
    obtain ⟨gaps, hgaps⟩ := ih
    exact hgaps.cons
  | @take rest pos advance t os hm _ ih =>
    obtain ⟨gaps, hgaps⟩ := ih
    have hreach := (of_matchAt (Spot.proper_nil _ _) hm).1
    let o : Occurrence := ⟨pos, t.pos, rest, t.captures⟩
    have hlength : o.text.length = t.pos - pos := List.length_take_of_le hreach.length_le
    have hrest : [] ++ (o.text ++ t.rest) = rest := by
      rw [hreach.rest_eq]
      exact List.take_append_drop _ rest
    have hstop : o.stop = o.start + o.text.length := by
      rw [hlength, Nat.add_sub_cancel' hreach.pos_le]
    have hcuts : Cuts pos ([] ++ (o.text ++ t.rest)) (o :: os) ([] :: gaps) := .part rfl hstop hgaps
    rw [hrest] at hcuts
    exact ⟨_, hcuts⟩

lemma splice_append {extra : Text} {edits : List (Occurrence × Text)}
    (h : ∀ e ∈ edits, pos + extra.length ≤ e.1.start ∧ e.1.start ≤ e.1.stop) :
    splice (extra ++ rest) pos edits = extra ++ splice rest (pos + extra.length) edits := by
  cases edits with
  | nil => rfl
  | cons e edits =>
    obtain ⟨hstart, hstop⟩ := h e List.mem_cons_self
    rw [splice, splice, List.take_append, List.drop_append, List.take_of_length_le (by omega),
      List.drop_of_length_le (by omega), Nat.sub_sub, Nat.sub_sub]
    simp only [List.append_assoc, List.nil_append]

end

section

variable (previous : Option Nat)

lemma replaceable_sublist (os : List Occurrence) : (replaceable previous os).Sublist os := by
  induction os generalizing previous with
  | nil => exact .slnil
  | cons o os ih =>
    rw [replaceable]
    split
    · exact (ih _).cons o
    · exact (ih _).cons_cons o

lemma replaceable_append (os os' : List Occurrence) :
    ∃ previous', replaceable previous (os ++ os') = replaceable previous os ++ replaceable previous' os' := by
  induction os generalizing previous with
  | nil => exact ⟨previous, rfl⟩
  | cons o os ih =>
    obtain ⟨previous', h⟩ := ih (some o.stop)
    refine ⟨previous', ?_⟩
    rw [List.cons_append, replaceable, replaceable]
    split
    · exact h
    · rw [h, List.cons_append]

lemma replaceable_cons (p : Option Occurrence) (o : Occurrence) (os : List Occurrence) :
    replaceable (p.map Occurrence.stop) (o :: os) =
      if o.clings p then replaceable (some o.stop) os else o :: replaceable (some o.stop) os := by
  rw [replaceable, Occurrence.clings]
  cases p with
  | none => rfl
  | some p => simp

lemma replaceable_eq_nil_iff (os : List Occurrence) : replaceable none os = [] ↔ os = [] := by
  cases os with
  | nil => rfl
  | cons o os =>
    rw [show none = (none : Option Occurrence).map Occurrence.stop from rfl, replaceable_cons]
    simp [Occurrence.clings]

end

section

variable {pos : Nat} {rest : Text} {os : List Occurrence} {gaps : List Text}

lemma text_of_clings {p : Option Occurrence} {o : Occurrence} (h : o.clings p = true)
    (hstop : o.stop = o.start + o.text.length) : o.text = [] := by
  have hempty : o.start = o.stop := by
    rw [Occurrence.clings, Bool.and_eq_true, Occurrence.isEmpty, decide_eq_true_iff] at h
    exact h.1
  exact List.eq_nil_of_length_eq_zero (by omega)

-- The occurrence before the first one is general: it changes from step to step.
lemma Cuts.splice_replaceable (t : Template) (h : Cuts pos rest os gaps) (p : Option Occurrence) :
    splice rest pos ((replaceable (p.map Occurrence.stop) os).map fun o => (o, t.expand o)) =
      fill gaps (List.zipWith t.put (p :: os.map some) os) := by
  induction h generalizing p with
  | whole pos rest => simp [replaceable, splice, fill]
  | @part pos gap rest o os gaps hstart hstop h ih =>
    have hrest := ih (some o)
    rw [Option.map_some] at hrest
    rw [replaceable_cons, List.map_cons, List.zipWith_cons_cons, fill, Template.put, ← hrest]
    split <;> rename_i hclings
    · have hpos : pos + gap.length = o.stop := by
        rw [hstop, hstart, text_of_clings hclings hstop]
        rfl
      rw [text_of_clings hclings hstop, List.nil_append, List.nil_append, ← hpos]
      refine splice_append fun e he => ?_
      obtain ⟨o', ho', rfl⟩ := List.mem_map.1 he
      rw [hpos]
      exact h.bounds o' ((replaceable_sublist _ _).mem ho')
    · have hdrop : o.stop - pos = gap.length + o.text.length := by omega
      rw [List.map_cons, splice, hstart, Nat.add_sub_cancel_left, List.take_left, hdrop, ← List.drop_drop, List.drop_left,
        List.drop_left, List.append_assoc]

end

section

variable {ignoreCase : Bool} {r : Regex} {subject : Text} {os : List Occurrence}
  (h : Enumerates ignoreCase r subject 0 false os)
include h

lemma chosen_zero : r.chosen ignoreCase 0 subject = replaceable none os := by
  rw [chosen, if_pos rfl, (enumerates_occurrences ignoreCase r subject).unique h]

lemma chosen_succ (n : Nat) : r.chosen ignoreCase (n + 1) subject = os[n]?.toList := by
  rw [chosen, if_neg (Nat.succ_ne_zero n), occurrences, occurrencesFrom_some]
  change (List.take (n + 1) (r.occurrences ignoreCase none subject)).drop n = _
  rw [(enumerates_occurrences ignoreCase r subject).unique h, List.drop_take, Nat.add_sub_cancel_left, List.take_one,
    List.head?_drop]

end

section

variable {x : Regexp} {r : Regex} (hx : x.compiled = some r) {template : Text} {t : Template}
  (ht : Template.parse template = some t) (hf : t.fits r.groups = true) {subject : Text} {os : List Occurrence}
  (h : Enumerates x.ignoreCase r subject 0 false os)
include hx ht hf

lemma substitute?_eq {count : Nat} (hc : count < Regexp.countLimit) :
    x.substitute? template count subject =
      .ok (if r.chosen x.ignoreCase count subject = [] then none
        else some (t.substitute subject (r.chosen x.ignoreCase count subject))) := by
  rw [Regexp.substitute?, Regexp.regex, hx]
  dsimp only
  rw [if_neg (Nat.not_le.2 hc)]
  cases r.chosen x.ignoreCase count subject with
  | nil => rfl
  | cons o os => simp [ht, hf]

include h

lemma substitute?_zero :
    x.substitute? template 0 subject =
      .ok (if os = [] then none else some (t.substitute subject (replaceable none os))) := by
  rw [substitute?_eq hx ht hf (Nat.two_pow_pos 63), chosen_zero h]
  simp only [replaceable_eq_nil_iff]

lemma substitute?_succ {n : Nat} (hn : n + 1 < Regexp.countLimit) :
    x.substitute? template (n + 1) subject = .ok (os[n]?.map fun o => t.substitute subject [o]) := by
  rw [substitute?_eq hx ht hf hn, chosen_succ h]
  cases os[n]? <;> rfl

end

/-- A substitution with a number replaces the occurrence of that number and nothing else, if there are as many. One for
all occurrences replaces each of them but those that are empty and start where the one before ends, in whose place
nothing comes; what is between the occurrences stays. -/
theorem substitution_replaces_enumerated {x : Regexp} {r : Regex} (hx : x.compiled = some r) {template : Text}
    {t : Template} (ht : Template.parse template = some t) (hf : t.fits r.groups = true) (subject : Text) :
    ∃ os gaps, Enumerates x.ignoreCase r subject 0 false os ∧
      (∀ os', Enumerates x.ignoreCase r subject 0 false os' → os' = os) ∧ Cuts 0 subject os gaps ∧
      subject = fill gaps (os.map Occurrence.text) ∧
      (∀ n, 1 ≤ n → n < Regexp.countLimit →
        (x.substitute? template n subject).map (fun new => (new.isSome, new.getD subject)) =
          .ok (decide (n ≤ os.length),
            os[n - 1]?.elim subject fun o => subject.take o.start ++ t.expand o ++ subject.drop o.stop)) ∧
      (x.substitute? template 0 subject).map (fun new => (new.isSome, new.getD subject)) =
        .ok (!os.isEmpty, fill gaps (List.zipWith t.put (none :: os.map some) os)) := by
  have hos := enumerates_occurrences x.ignoreCase r subject
  generalize r.occurrences x.ignoreCase none subject = os at hos
  obtain ⟨gaps, hgaps⟩ := hos.cuts
  refine ⟨os, gaps, hos, fun os' h => hos.unique h, hgaps, hgaps.eq_fill, fun n hn hlimit => ?_, ?_⟩
  · obtain ⟨n, rfl⟩ := Nat.exists_eq_add_of_le' hn
    rw [substitute?_succ hx ht hf hos hlimit, Nat.add_sub_cancel]
    by_cases hlength : n < os.length
    · rw [List.getElem?_eq_getElem hlength, decide_eq_true (Nat.succ_le_of_lt hlength)]
      rfl
    · rw [List.getElem?_eq_none (Nat.not_lt.1 hlength), decide_eq_false (by omega)]
      rfl
  · have hsplice := hgaps.splice_replaceable t none
    rw [substitute?_zero hx ht hf hos, ← hsplice]
    cases os with
    | nil => rfl
    | cons o os => rfl

def sampleStar : Regexp := ⟨['a', '*'], false, some (.rep 0 none (.char 'a'))⟩

def sampleStars : Text := ['b', 'a', 'a', 'a', 'c']

lemma ofScript_sampleStar : Regexp.ofScript false false false ['a', '*'] = .ok (some sampleStar) := by
  decide +kernel

theorem substitution_replaces_enumerated_sampleStars :
    sampleStar.compiled = some (.rep 0 none (.char 'a')) ∧ Template.parse ['x'] = some [.char 'x'] ∧
      Template.fits 0 [.char 'x'] = true ∧
      ∃ os gaps, Enumerates false (.rep 0 none (.char 'a')) sampleStars 0 false os ∧ Cuts 0 sampleStars os gaps ∧
        os.map (fun o => (o.start, o.stop)) = [(0, 0), (1, 4), (4, 4), (5, 5)] ∧
        fill gaps (List.zipWith (Template.put [.char 'x']) (none :: os.map some) os) = ['x', 'b', 'x', 'c', 'x'] := by
  have ht : Template.parse ['x'] = some [.char 'x'] := by decide +kernel
  have hf : Template.fits (Regex.rep 0 none (.char 'a')).groups [.char 'x'] = true := rfl
  obtain ⟨os, gaps, hos, hunique, hcuts, -, -, hall⟩ :=
    substitution_replaces_enumerated (x := sampleStar) rfl ht hf sampleStars
  have hspans : os.map (fun o => (o.start, o.stop)) = [(0, 0), (1, 4), (4, 4), (5, 5)] := by
    rw [← hunique _ (enumerates_occurrences _ _ _)]
    decide +kernel
  have hnew : (sampleStar.substitute? ['x'] 0 sampleStars).map (fun new => (new.isSome, new.getD sampleStars)) =
      .ok (true, ['x', 'b', 'x', 'c', 'x']) := by
    decide +kernel
  rw [hnew, Except.ok.injEq, Prod.mk.injEq] at hall
  exact ⟨rfl, ht, hf, os, gaps, hos, hcuts, hspans, hall.2.symm⟩

section

variable {os : List Occurrence}

lemma touching_cons {p o : Occurrence} : Touching (p :: o :: os) ↔ o.clings (some p) = true ∨ Touching (o :: os) := by
  constructor
  · rintro ⟨p', o', hinfix, hclings⟩
    rcases List.infix_cons_iff.1 hinfix with hstart | hinfix
    · obtain ⟨rfl, rfl⟩ : p' = p ∧ o' = o := by simpa using hstart
      exact .inl hclings
    · exact .inr ⟨p', o', hinfix, hclings⟩
  · rintro (hclings | ⟨p', o', hinfix, hclings⟩)
    · exact ⟨p, o, (List.prefix_append [p, o] os).isInfix, hclings⟩
    · exact ⟨p', o', List.infix_cons hinfix, hclings⟩

lemma not_touching_singleton (p : Occurrence) : ¬Touching [p] := by
  rintro ⟨p', o, hinfix, -⟩
  simpa using hinfix.length_le

lemma replaceable_after_eq_self_iff (p : Occurrence) :
    replaceable (some p.stop) os = os ↔ ¬Touching (p :: os) := by
  induction os generalizing p with
  | nil => exact iff_of_true rfl (not_touching_singleton p)
  | cons o os ih =>
    rw [touching_cons, not_or, ← ih, show some p.stop = (some p).map Occurrence.stop from rfl, replaceable_cons]
    split <;> rename_i hclings
    · refine iff_of_false (fun h => ?_) fun h => h.1 hclings
      have hle := (replaceable_sublist (some o.stop) os).length_le
      rw [h, List.length_cons] at hle
      omega
    · simp [hclings]

lemma replaceable_eq_self_iff : replaceable none os = os ↔ ¬Touching os := by
  cases os with
  | nil =>
    refine iff_of_true rfl ?_
    rintro ⟨p, o, hinfix, -⟩
    simpa using hinfix.length_le
  | cons o os =>
    rw [← replaceable_after_eq_self_iff, show none = (none : Option Occurrence).map Occurrence.stop from rfl,
      replaceable_cons]
    simp [Occurrence.clings]

lemma getElem?_replaceable_iff (hnodup : os.Nodup) (n : Nat) :
    os[n]? = (replaceable none os)[n]? ↔ os.length ≤ n ∨ ¬Touching (os.take (n + 1)) := by
  obtain ⟨previous, happend⟩ := replaceable_append none (os.take (n + 1)) (os.drop (n + 1))
  rw [List.take_append_drop] at happend
  by_cases hn : os.length ≤ n
  · refine iff_of_true ?_ (.inl hn)
    rw [List.getElem?_eq_none hn, List.getElem?_eq_none (Nat.le_trans (replaceable_sublist none os).length_le hn)]
  · have hlength : (os.take (n + 1)).length = n + 1 := List.length_take_of_le (by omega)
    rw [or_iff_right hn, ← replaceable_eq_self_iff]
    constructor
    · intro h
      by_contra hne
      have hsub := replaceable_sublist none (os.take (n + 1))
      have hlt := Nat.lt_of_le_of_ne hsub.length_le fun he => hne (hsub.eq_of_length he)
      rw [happend, List.getElem?_append_right (by omega), List.getElem?_eq_getElem (by omega)] at h
      have hlater := (replaceable_sublist previous _).mem (List.mem_of_getElem? h.symm)
      have hsooner : os[n] ∈ os.take (n + 1) := List.mem_take_iff_getElem.2 ⟨n, by omega, rfl⟩
      exact List.disjoint_take_drop hnodup (Nat.le_refl _) hsooner hlater
    · intro h
      rw [happend, h, List.getElem?_append_left (by omega), List.getElem?_take, if_pos (Nat.lt_succ_self n)]

end

/-- A number counts all occurrences, but the empty ones that start where the one before ends are not replaced without a
number. So both agree on the occurrence of a number exactly if there is none of these up to it, and on how many there
are exactly if there is none at all. -/
theorem number_counts_clinging {x : Regexp} {r : Regex} (hx : x.compiled = some r) {template : Text} {t : Template}
    (ht : Template.parse template = some t) (hf : t.fits r.groups = true) (subject : Text) :
    ∃ os, Enumerates x.ignoreCase r subject 0 false os ∧
      x.substitute? template 0 subject =
        .ok (if os = [] then none else some (t.substitute subject (replaceable none os))) ∧
      (∀ n, 1 ≤ n → x.substitute? template n subject =
        if n < Regexp.countLimit then .ok (os[n - 1]?.map fun o => t.substitute subject [o])
        else .error .countTooLarge) ∧
      (∀ n, 1 ≤ n →
        (os[n - 1]? = (replaceable none os)[n - 1]? ↔ os.length < n ∨ ¬Touching (os.take n))) ∧
      ((∀ n, n ≤ os.length ↔ n ≤ (replaceable none os).length) ↔ ¬Touching os) := by
  have hos := enumerates_occurrences x.ignoreCase r subject
  generalize r.occurrences x.ignoreCase none subject = os at hos
  refine ⟨os, hos, substitute?_zero hx ht hf hos, fun n hn => ?_, fun n hn => ?_, ?_⟩
  · obtain ⟨n, rfl⟩ := Nat.exists_eq_add_of_le' hn
    split <;> rename_i hlimit
    · exact substitute?_succ hx ht hf hos hlimit
    · rw [Regexp.substitute?, Regexp.regex, hx]
      exact if_pos (Nat.not_lt.1 hlimit)
  · obtain ⟨n, rfl⟩ := Nat.exists_eq_add_of_le' hn
    rw [Nat.add_sub_cancel, Nat.lt_succ_iff]
    exact getElem?_replaceable_iff hos.nodup n
  · rw [← replaceable_eq_self_iff]
    constructor
    · intro h
      exact (replaceable_sublist none os).eq_of_length_le ((h _).1 (Nat.le_refl _))
    · intro h n
      rw [h]

theorem number_counts_clinging_sampleStars :
    sampleStar.compiled = some (.rep 0 none (.char 'a')) ∧ Template.parse ['x'] = some [.char 'x'] ∧
      Template.fits 0 [.char 'x'] = true ∧
      ∃ os, Enumerates false (.rep 0 none (.char 'a')) sampleStars 0 false os ∧ Touching (os.take 3) ∧
        os[1]? = (replaceable none os)[1]? ∧ os[2]? ≠ (replaceable none os)[2]? := by
  have ht : Template.parse ['x'] = some [.char 'x'] := by decide +kernel
  have hf : Template.fits (Regex.rep 0 none (.char 'a')).groups [.char 'x'] = true := rfl
  obtain ⟨os, hos, -, -, hagree, -⟩ := number_counts_clinging (x := sampleStar) rfl ht hf sampleStars
  obtain ⟨hsame, hother⟩ : os[1]? = (replaceable none os)[1]? ∧ os[2]? ≠ (replaceable none os)[2]? := by
    rw [← hos.unique (enumerates_occurrences _ _ _)]
    decide +kernel
  have htouching : Touching (os.take 3) := by
    by_contra h
    exact hother ((hagree 3 (by decide)).2 (.inr h))
  exact ⟨rfl, ht, hf, os, hos, htouching, hsame, hother⟩

theorem third_of_sampleStars_differs :
    Regexp.ofScript false false false ['a', '*'] = .ok (some sampleStar) ∧
      ∃ r, sampleStar.compiled = some r ∧
        (r.chosen false 0 sampleStars).map (fun o => (o.start, o.stop)) = [(0, 0), (1, 4), (5, 5)] ∧
        (r.chosen false 3 sampleStars).map (fun o => (o.start, o.stop)) = [(4, 4)] ∧
        sampleStar.substitute? ['x'] 3 sampleStars = .ok (some ['b', 'a', 'a', 'a', 'x', 'c']) ∧
        sampleStar.substitute? ['x'] 4 sampleStars = .ok (some ['b', 'a', 'a', 'a', 'c', 'x']) :=
  ⟨ofScript_sampleStar, _, rfl, by decide +kernel, by decide +kernel, by decide +kernel, by decide +kernel⟩

end StreamEditor
