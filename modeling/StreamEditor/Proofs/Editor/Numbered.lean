import StreamEditor.Proofs.Editor.Substituted
import StreamEditor.Proofs.Regex.Replaced
import StreamEditor.Proofs.Script.Separators
import StreamEditor.Proofs.Text.Number

/-! Which occurrences the flags of a substitution ask for, and what becomes of the pattern space. A number among the
flags counts occurrences, but for zero, which stands for all of them. -/

namespace StreamEditor

open Edit Outcome Regex

namespace Script

def HasFlags (text : Text) (i : Nat) (letters : Text) : Prop :=
  ∃ j pattern new k flags, pieces text i = .ok (j, pattern, new) ∧ tail text j = .ok (k, flags) ∧
    letters = flags.takeWhile isFlag

def firstNumber (letters : Text) : Text :=
  (letters.dropWhile (!Text.isAsciiDigit ·)).takeWhile Text.isAsciiDigit

section

variable {text letters : Text} {i j : Nat} {s : Substitution}

lemma flagCount_of_substitution (h : substitution text i = .ok (j, s)) (hl : HasFlags text i letters) :
    flagCount letters = .ok s.count := by
  obtain ⟨k, pattern, new, l, flags, hpieces, htail, rfl⟩ := hl
  rw [substitution_eq] at h
  obtain ⟨r, hr, h⟩ := bind_eq_ok.1 h
  cases hpieces.symm.trans hr
  obtain ⟨r, hr, h⟩ := bind_eq_ok.1 h
  cases htail.symm.trans hr
  obtain ⟨s', hflagged, hs⟩ := map_eq_ok.1 h
  cases hs
  rw [flagged] at hflagged
  obtain ⟨file, -, hflagged⟩ := bind_eq_ok.1 hflagged
  obtain ⟨count, hcount, hflagged⟩ := bind_eq_ok.1 hflagged
  cases hflagged
  exact hcount

lemma count_eq_zero_iff {n : Nat} (hg : 'g' ∉ letters) (h : flagCount letters = .ok n) :
    n = 0 ↔ firstNumber letters ≠ [] ∧ ∀ d ∈ firstNumber letters, d = '0' := by
  have hdigits : ∀ d ∈ firstNumber letters, Text.isAsciiDigit d = true := fun _ hd => List.mem_takeWhile_imp hd
  have hcontains : letters.contains 'g' = false := by simpa using hg
  rw [flagCount, hcontains] at h
  rw [firstNumber] at hdigits ⊢
  generalize (letters.dropWhile (!Text.isAsciiDigit ·)).takeWhile Text.isAsciiDigit = number at h hdigits ⊢
  cases number with
  | nil =>
    cases h
    simp
  | cons d ds =>
    dsimp only at h
    split at h
    · cases h
    · split at h
      · cases h
      · cases h
        rw [Text.toNumber_eq_zero hdigits]
        simp

end

end Script

namespace Substitution

structure Finds (s : Substitution) (m : Machine) (x : Regexp) (r : Regex) (t : Template) (os : List Occurrence) :
    Prop where
  regexp : s.regexp? m = some x
  compiled : x.compiled = some r
  template : Template.parse s.replacement = some t
  fits : t.fits r.groups = true
  countable : s.count < Regexp.countLimit
  occurrences : Enumerates x.ignoreCase r m.space 0 false os

def ReplacesOne (s : Substitution) (m : Machine) (new : Text) : Prop :=
  ∃ x r t os o, s.Finds m x r t os ∧ os[s.count - 1]? = some o ∧
    new = m.space.take o.start ++ t.expand o ++ m.space.drop o.stop

/-- The text is the pattern space with all occurrences replaced, but for those that are empty and start where the one
before ends. -/
def ReplacesAll (s : Substitution) (m : Machine) (new : Text) : Prop :=
  ∃ x r t os gaps, s.Finds m x r t os ∧ os ≠ [] ∧ Cuts 0 m.space os gaps ∧
    new = fill gaps (List.zipWith t.put (none :: os.map some) os)

lemma count_prepare (s : Substitution) (mode : RegexpMode) : (s.prepare mode).value.count = s.count := by
  rw [prepare]
  repeat' split
  all_goals rfl

end Substitution

lemma substitute?_eq_some_iff {x : Regexp} {template subject new : Text} {count : Nat} :
    x.substitute? template count subject = .ok (some new) ↔
      ∃ r t, x.compiled = some r ∧ count < Regexp.countLimit ∧ Template.parse template = some t ∧
        t.fits r.groups = true ∧ r.chosen x.ignoreCase count subject ≠ [] ∧
        new = t.substitute subject (r.chosen x.ignoreCase count subject) := by
  constructor
  · intro h
    rw [Regexp.substitute?] at h
    cases hc : x.compiled with
    | none =>
      simp only [hc, Option.isNone_none, if_true] at h
      repeat' split at h
      all_goals cases h
    | some r =>
      rw [Regexp.regex, hc] at h
      dsimp only at h
      split at h
      · cases h
      · rename_i hlimit
        split at h
        · cases h
        · rename_i hsome
          rw [if_neg (by simp)] at h
          split at h
          · cases h
          · rename_i t ht
            split at h
            · rename_i hfits
              cases h
              exact ⟨r, t, rfl, Nat.not_le.1 hlimit, ht, hfits, hsome, rfl⟩
            · cases h
  · rintro ⟨r, t, hr, hlimit, ht, hfits, hsome, rfl⟩
    rw [substitute?_eq hr ht hfits hlimit, if_neg hsome]

namespace Substitution

section

variable {s : Substitution} {m : Machine} {new : Text}

lemma made?_eq_some_iff :
    s.made? m = some new ↔ ∃ x r t os, s.Finds m x r t os ∧ r.chosen x.ignoreCase s.count m.space ≠ [] ∧
      new = t.substitute m.space (r.chosen x.ignoreCase s.count m.space) := by
  rw [made?, Option.bind_eq_some_iff]
  constructor
  · rintro ⟨x, hx, hmade⟩
    obtain ⟨r, t, hr, hlimit, ht, hfits, hsome, hnew⟩ := substitute?_eq_some_iff.1 (toOption_join_eq_some.1 hmade)
    exact ⟨x, r, t, _, ⟨hx, hr, ht, hfits, hlimit, enumerates_occurrences _ r m.space⟩, hsome, hnew⟩
  · rintro ⟨x, r, t, os, h, hsome, hnew⟩
    refine ⟨x, h.regexp, toOption_join_eq_some.2 (substitute?_eq_some_iff.2 ?_)⟩
    exact ⟨r, t, h.compiled, h.countable, h.template, h.fits, hsome, hnew⟩

lemma made?_iff_replacesOne (hcount : s.count ≠ 0) : s.made? m = some new ↔ s.ReplacesOne m new := by
  obtain ⟨n, hn⟩ := Nat.exists_eq_succ_of_ne_zero hcount
  rw [made?_eq_some_iff]
  constructor
  · rintro ⟨x, r, t, os, h, hsome, hnew⟩
    rw [hn, chosen_succ h.occurrences] at hsome hnew
    cases ho : os[n]? with
    | none => simp [ho] at hsome
    | some o =>
      rw [ho] at hnew
      exact ⟨x, r, t, os, o, h, by rw [hn]; exact ho, hnew⟩
  · rintro ⟨x, r, t, os, o, h, ho, hnew⟩
    rw [hn, Nat.succ_sub_one] at ho
    refine ⟨x, r, t, os, h, ?_⟩
    rw [hn, chosen_succ h.occurrences, ho]
    exact ⟨by simp, hnew⟩

lemma made?_iff_replacesAll (hcount : s.count = 0) : s.made? m = some new ↔ s.ReplacesAll m new := by
  rw [made?_eq_some_iff]
  constructor
  · rintro ⟨x, r, t, os, h, hsome, hnew⟩
    rw [hcount, chosen_zero h.occurrences] at hsome hnew
    obtain ⟨gaps, hgaps⟩ := h.occurrences.cuts
    rw [ne_eq, replaceable_eq_nil_iff] at hsome
    exact ⟨x, r, t, os, gaps, h, hsome, hgaps, hnew.trans (hgaps.splice_replaceable t none)⟩
  · rintro ⟨x, r, t, os, gaps, h, hsome, hgaps, hnew⟩
    refine ⟨x, r, t, os, h, ?_⟩
    rw [hcount, chosen_zero h.occurrences, ne_eq, replaceable_eq_nil_iff]
    exact ⟨hsome, hnew.trans (hgaps.splice_replaceable t none).symm⟩

end

end Substitution

/-- A substitution without `g` replaces the occurrence of its number and nothing else, unless its number is written
with zeros only: then it replaces all of them. -/
theorem one_replaced_unless_zero {text letters : Text} {i j : Nat} {s : Substitution}
    (h : Script.substitution text i = .ok (j, s)) (hletters : Script.HasFlags text i letters) (hg : 'g' ∉ letters)
    (mode : RegexpMode) (m : Machine) :
    (s.count = 0 ↔ Script.firstNumber letters ≠ [] ∧ ∀ d ∈ Script.firstNumber letters, d = '0') ∧
      (s.count ≠ 0 → Substitution.EndsAs m ((s.prepare mode).value.ReplacesOne m)
        (final ((s.prepare mode).value.execute m))) ∧
      (s.count = 0 → Substitution.EndsAs m ((s.prepare mode).value.ReplacesAll m)
        (final ((s.prepare mode).value.execute m))) := by
  have hends := endsAs_execute (m := m) (s.prepare mode).value
  rw [← s.count_prepare mode]
  refine ⟨?_, fun hcount => ?_, fun hcount => ?_⟩
  · rw [s.count_prepare]
    exact Script.count_eq_zero_iff hg (Script.flagCount_of_substitution h hletters)
  · simpa only [Substitution.made?_iff_replacesOne hcount] using hends
  · simpa only [Substitution.made?_iff_replacesAll hcount] using hends

def sampleThrice : Machine := ⟨{ pattern := some ['a', 'a', 'a'] }, [], 1, false, #[], 0⟩

def sampleUnprepared (count : Nat) (print : Bool) : Substitution :=
  ⟨some ['a'], ['b'], count, print, false, false, [], .pending⟩

def sampleCounted (count : Nat) (print : Bool) : Substitution :=
  { sampleUnprepared count print with target := .own ⟨['a'], false, some (.char 'a')⟩ }

lemma prepare_sampleUnprepared (count : Nat) (print : Bool) :
    ((sampleUnprepared count print).prepare ⟨false, false⟩).value = sampleCounted count print := by
  have hx : Regexp.ofScript false false false ['a'] = .ok (some ⟨['a'], false, some (.char 'a')⟩) :=
    of_toOption (by decide +kernel)
  have hnew : Dialect.convertReplacement ['b'] = ['b'] := by decide +kernel
  dsimp only [Substitution.prepare, sampleUnprepared]
  rw [hx, hnew]
  rfl

theorem one_replaced_unless_zero_second :
    Script.substitution ['/', 'a', '/', 'b', '/', 'p', '0', '2'] 0 = .ok (8, sampleUnprepared 2 true) ∧
      Script.HasFlags ['/', 'a', '/', 'b', '/', 'p', '0', '2'] 0 ['p', '0', '2'] ∧ 'g' ∉ ['p', '0', '2'] ∧
      Script.firstNumber ['p', '0', '2'] = ['0', '2'] ∧
      (sampleCounted 2 true).ReplacesOne sampleThrice ['a', 'b', 'a'] ∧
      (final ((sampleCounted 2 true).execute sampleThrice)).editor.pattern = some ['a', 'b', 'a'] := by
  have h : Script.substitution ['/', 'a', '/', 'b', '/', 'p', '0', '2'] 0 = .ok (8, sampleUnprepared 2 true) :=
    of_toOption (by decide +kernel)
  have hletters : Script.HasFlags ['/', 'a', '/', 'b', '/', 'p', '0', '2'] 0 ['p', '0', '2'] :=
    ⟨5, some ['a'], ['b'], 8, ['p', '0', '2'], of_toOption (by decide +kernel), of_toOption (by decide +kernel), rfl⟩
  have hone : (sampleCounted 2 true).ReplacesOne sampleThrice ['a', 'b', 'a'] :=
    (Substitution.made?_iff_replacesOne (by decide)).1 (by decide +kernel)
  have hends := (one_replaced_unless_zero h hletters (by decide) ⟨false, false⟩ sampleThrice).2.1 (by decide)
  rw [prepare_sampleUnprepared] at hends
  exact ⟨h, hletters, by decide, rfl, hone, (hends.1 _ hone).1⟩

-- `s/a/b/0` on `aaa`: the result is not reached by replacing one occurrence, whichever it is.
theorem zero_replaces_all :
    Script.substitution ['/', 'a', '/', 'b', '/', '0'] 0 = .ok (6, sampleUnprepared 0 false) ∧
      Script.HasFlags ['/', 'a', '/', 'b', '/', '0'] 0 ['0'] ∧ 'g' ∉ ['0'] ∧
      (final ((sampleCounted 0 false).execute sampleThrice)).editor.pattern = some ['b', 'b', 'b'] ∧
      ∀ n, ¬(sampleCounted n false).ReplacesOne sampleThrice ['b', 'b', 'b'] := by
  refine ⟨of_toOption (by decide +kernel), ?_, by decide, by decide +kernel, ?_⟩
  · exact ⟨5, some ['a'], ['b'], 6, ['0'], of_toOption (by decide +kernel), of_toOption (by decide +kernel), rfl⟩
  · rintro n ⟨x, r, t, os, o, hfinds, ho, hnew⟩
    cases hfinds.regexp
    cases hfinds.compiled
    have ht : Template.parse ['b'] = some t := hfinds.template
    cases ht.symm.trans (show Template.parse ['b'] = some [.char 'b'] by decide +kernel)
    cases hfinds.occurrences.unique (enumerates_occurrences _ _ _)
    have hall : ∀ o ∈ (Regex.char 'a').occurrences false none sampleThrice.space, ['b', 'b', 'b'] ≠
        sampleThrice.space.take o.start ++ Template.expand [.char 'b'] o ++ sampleThrice.space.drop o.stop := by
      decide +kernel
    exact hall o (List.mem_of_getElem? ho) hnew

end StreamEditor
