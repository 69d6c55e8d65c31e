import Mathlib.Tactic.Lemma
import StreamEditor.Measure.Round

namespace StreamEditor.Measure

def NewLeast (before : List Int) (x : Int) : Prop := ∀ y ∈ before, x < y

def Fruitless (counts : List Int) (n : Nat) : Prop :=
  ∀ before x after, counts = before ++ x :: after → after.length < n → ¬NewLeast before x

namespace Plateau

/-- The counts are cut where the best one first appears. -/
inductive Of : Plateau → List Int → Prop where
  | intro {before after : List Int} {best : Int} (hnew : NewLeast before best)
      (hle : ∀ y ∈ after, best ≤ y) : Of ⟨best, after.length⟩ (before ++ best :: after)

variable {p : Plateau} {counts : List Int}

lemma of_start (x : Int) : (start x).Of [x] :=
  @Of.intro [] [] x (by simp [NewLeast]) (by simp)

lemma Of.mem (h : p.Of counts) : p.best ∈ counts := by
  cases h
  simp

lemma Of.best_le (h : p.Of counts) : ∀ x ∈ counts, p.best ≤ x := by
  obtain ⟨hnew, hle⟩ := h
  intro x hx
  rcases List.mem_append.1 hx with hx | hx
  · exact Int.le_of_lt (hnew x hx)
  · rcases List.mem_cons.1 hx with rfl | hx
    · exact Int.le_refl _
    · exact hle x hx

lemma Of.step (h : p.Of counts) (x : Int) : (p.step x).Of (counts ++ [x]) := by
  unfold Plateau.step
  split
  case isTrue hx =>
    exact @Of.intro counts [] x (fun y hy => Int.lt_of_lt_of_le hx (h.best_le y hy)) (by simp)
  case isFalse hx =>
    obtain @⟨before, after, best, hnew, hle⟩ := h
    have hafter : ∀ y ∈ after ++ [x], best ≤ y := by
      intro y hy
      rcases List.mem_append.1 hy with hy | hy
      · exact hle y hy
      · exact List.mem_singleton.1 hy ▸ Int.not_lt.1 hx
    simpa using Of.intro hnew hafter

lemma Of.foldl (h : p.Of counts) (xs : List Int) : (xs.foldl Plateau.step p).Of (counts ++ xs) := by
  induction xs generalizing p counts with
  | nil => simpa using h
  | cons x xs ih => simpa using ih (h.step x)

lemma of_ofCounts (history : List Int) (current : Int) :
    (ofCounts history current).Of (history ++ [current]) := by
  cases history with
  | nil => exact of_start current
  | cons x xs => exact (of_start x).foldl (xs ++ [current])

lemma Of.since_eq (h : p.Of counts) :
    p.since = (counts.drop (counts.idxOf p.best + 1)).length := by
  obtain @⟨before, after, best, hnew, -⟩ := h
  have hbest : best ∉ before := fun h => Int.lt_irrefl _ (hnew best h)
  have hat : (before ++ best :: after).idxOf best = before.length := by
    simp [List.idxOf_append, hbest]
  simp [hat]

lemma Of.mem_of_late {before after : List Int} {x : Int} (h : p.Of (before ++ x :: after))
    (hlate : after.length < p.since) : p.best ∈ before := by
  generalize hcounts : before ++ x :: after = counts at h
  obtain @⟨before', after', best, -, -⟩ := h
  rcases List.append_eq_append_iff.1 hcounts with ⟨between, rfl, hrest⟩ | ⟨between, rfl, hrest⟩
  · have hlen := congrArg List.length hrest
    simp at hlen hlate
    omega
  · cases between with
    | nil =>
      have hlen := congrArg List.length hrest
      simp at hlen hlate
      omega
    | cons y between =>
      obtain ⟨rfl, -⟩ := List.cons.inj hrest
      simp

lemma Of.le_since_iff (h : p.Of counts) (n : Nat) : n ≤ p.since ↔ Fruitless counts n := by
  constructor
  · rintro hn before x after rfl hlate hnew
    have hbest := h.mem_of_late (Nat.lt_of_lt_of_le hlate hn)
    exact Int.not_lt.2 (h.best_le x (by simp)) (hnew _ hbest)
  · obtain @⟨before, after, best, hnew, -⟩ := h
    intro hfruit
    exact Nat.le_of_not_lt fun hn => hfruit before best after rfl hn hnew

end Plateau

variable {earlier : List Int} {current : Int}

lemma verdict_eq_converged_iff : verdict earlier current = .converged ↔ current = 0 := by
  unfold verdict
  by_cases h0 : current = 0
  · simp [h0]
  · simp only [h0, if_false, iff_false]
    split <;> simp

lemma eq_ofCounts_of_verdict {p : Plateau} (h : verdict earlier current = .stalled p) :
    p = Plateau.ofCounts earlier current := by
  unfold verdict at h
  grind

lemma verdict_eq_stalled_iff :
    verdict earlier current = .stalled (Plateau.ofCounts earlier current) ↔
      current ≠ 0 ∧ Fruitless (earlier ++ [current]) patience := by
  rw [← (Plateau.of_ofCounts earlier current).le_since_iff patience]
  unfold verdict
  by_cases h0 : current = 0
  · simp [h0]
  · simp [h0]

lemma convergedLine_ne_stalledLine (p : Plateau) : convergedLine ≠ stalledLine p := by
  have hc : convergedLine[10]? = some 'r' := rfl
  have hs : (stalledLine p)[10]? = some 'n' := rfl
  intro h
  simp [h, hs] at hc

structure Judges (store : Store) (tools : Tools) (earlier : List Int) (current : Int) : Prop where
  ran : ∃ out err, tools.coverage = .ended 0 out err
  covered : ∃ measured, Json.parse (contents store coverageFile) = .ok measured ∧
    (Coverage.ofJson measured).percentNumber.less coverageEnough = false
  timed : (timing store tools).1.percents ≠ []
  earlier_eq : history (recordLines store) = earlier
  current_eq : ((timing store tools).1.below : Int) = current

lemma exists_getLast?_round {store : Store} {tools : Tools} (h : Judges store tools earlier current)
    (clock : Clock) : ∃ line, line.head? = some '[' ∧
      (round store tools clock).out.getLast? =
        some ((verdict earlier current).lines.getLast?.getD line) := by
  obtain ⟨⟨out, err, hrun⟩, ⟨measured, hread, hcovered⟩, htimed, rfl, rfl⟩ := h
  have hlines : verdictLines (Coverage.ofJson measured) (timing store tools).1
      (history (recordLines store)) =
        (verdict (history (recordLines store)) (timing store tools).1.below).lines := by
    simp [verdictLines, hcovered, htimed]
  have hcut (xs : List Text) (a line : Text) (v : List Text) :
      (xs ++ [a, line] ++ v).getLast? = some (v.getLast?.getD line) := by
    cases v with
    | nil => simp
    | cons b v => simp [List.getLast?_cons]
  unfold round
  simp only [hrun, hread, hlines]
  exact ⟨_, rfl, hcut _ _ _ _⟩

def sampleStore : Store :=
  [(coverageFile, Text.toUtf8 "\x7b\"totals\": \x7b\"percent_covered\": 60\x7d\x7d".toList), (repoTimeFile, []),
    (recordFile, Text.toUtf8 ("\x7b\"n_below_repo_time\": 3\x7d\n\x7b\"n_below_repo_time\": 1\x7d\n" ++
      "\x7b\"n_below_repo_time\": 2\x7d\n\x7b\"n_below_repo_time\": 1\x7d\n").toList)]

def sampleTools : Tools where
  coverage := .ended 0 [] []
  changes := .raised []
  repoTime := .ended 0 "\x7b\"repo_time_pct\": \x7b\"a\": 20.0, \"b\": 45.0\x7d\x7d".toList []
  selfCheck := .raised []

lemma sample_judges : Judges sampleStore sampleTools [3, 1, 2, 1] 1 where
  ran := ⟨_, _, rfl⟩
  covered := by
    have h : (Json.parse (contents sampleStore coverageFile)).toOption.any (fun measured =>
        !(Coverage.ofJson measured).percentNumber.less coverageEnough) = true := by decide +kernel
    cases hread : Json.parse (contents sampleStore coverageFile) with
    | error e =>
      rw [hread] at h
      cases h
    | ok measured =>
      rw [hread] at h
      exact ⟨measured, rfl, (Bool.not_eq_true' _).mp h⟩
  timed := by decide +kernel
  earlier_eq := by decide +kernel
  current_eq := by decide +kernel

end StreamEditor.Measure
