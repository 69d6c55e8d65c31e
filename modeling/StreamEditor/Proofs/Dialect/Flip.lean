import StreamEditor.Dialect
import StreamEditor.Proofs.Dialect.Bracket

/-! Basic and extended regexps are each other's flipped form: flipping takes a regexp apart at places where the flipped
regexp comes apart too. -/

namespace StreamEditor.Dialect

/-- Two regexps of which each is the other with the backslashes before operators set and removed. What else a backslash
stands before stays with it, and sets stay as they are. -/
inductive Flips : Text → Text → Prop
  | nil : Flips [] []
  | bare {c : Char} {t u : Text} : isFlipped c = true → Flips t u → Flips (c :: t) ('\\' :: c :: u)
  | escaped {c : Char} {t u : Text} : isFlipped c = true → Flips t u → Flips ('\\' :: c :: t) (c :: u)
  | kept {c : Char} {t u : Text} : isFlipped c = false → Flips t u → Flips ('\\' :: c :: t) ('\\' :: c :: u)
  | lone : Flips ['\\'] ['\\']
  | set {s t u : Text} : BracketSet s → Flips t u → Flips (s ++ t) (s ++ u)
  | char {c : Char} {t u : Text} :
      isFlipped c = false → c ≠ '\\' → c ≠ '[' → Flips t u → Flips (c :: t) (c :: u)

lemma Flips.symm {t u : Text} (h : Flips t u) : Flips u t := by
  induction h with
  | nil => exact .nil
  | bare hc _ ih => exact .escaped hc ih
  | escaped hc _ ih => exact .bare hc ih
  | kept hc _ ih => exact .kept hc ih
  | lone => exact .lone
  | set hs _ ih => exact .set hs ih
  | char hc hs hb _ ih => exact .char hc hs hb ih

lemma flipAfter_char {c : Char} (hb : c ≠ '[') (hs : c ≠ '\\') (rest : Text) :
    flipAfter 0 (c :: rest) =
      if isFlipped c then (flipAfter 0 rest).map ('\\' :: c :: ·) else (flipAfter 0 rest).map (c :: ·) := by
  rw [flipAfter]
  all_goals simp_all

lemma flipAfter_length (s t : Text) : flipAfter s.length (s ++ t) = (flipAfter 0 t).map (s ++ ·) := by
  induction s with
  | nil => cases h : flipAfter 0 t <;> simp [h, Except.map]
  | cons c s ih =>
    rw [List.length_cons, List.cons_append, flipAfter, ih]
    cases flipAfter 0 t <;> rfl

lemma BracketSet.flipAfter_append {s : Text} (h : BracketSet s) (t : Text) :
    flipAfter 0 (s ++ t) = (flipAfter 0 t).map (s ++ ·) := by
  obtain ⟨n, hlength, hclosing⟩ := h.closingBracket?_eq t
  obtain ⟨inside, rfl⟩ : ∃ inside, s = '[' :: inside := by
    cases h <;> exact ⟨_, rfl⟩
  obtain rfl : inside.length = n := by simpa using hlength
  rw [List.cons_append] at hclosing ⊢
  rw [flipAfter, hclosing]
  dsimp only
  rw [flipAfter_length]
  cases flipAfter 0 t <;> rfl

lemma ne_of_isFlipped {c : Char} (h : isFlipped c = true) : c ≠ '[' ∧ c ≠ '\\' := by
  constructor <;> rintro rfl <;> exact absurd h (by decide)

lemma Flips.flipAfter_eq {t u : Text} (h : Flips t u) : flipAfter 0 t = .ok u := by
  induction h with
  | nil => rfl
  | bare hc _ ih =>
    obtain ⟨hb, hs⟩ := ne_of_isFlipped hc
    rw [flipAfter_char hb hs, if_pos hc, ih]
    rfl
  | escaped hc _ ih =>
    rw [flipAfter, if_pos hc, ih]
    rfl
  | kept hc _ ih =>
    rw [flipAfter, if_neg (by simp [hc]), ih]
    rfl
  | lone => rfl
  | set hs _ ih =>
    rw [hs.flipAfter_append, ih]
    rfl
  | char hc hs hb _ ih =>
    rw [flipAfter_char hb hs, if_neg (by simp [hc]), ih]
    rfl

-- Along the recursion of flipping, so that also what is left of a set is covered.
lemma flips_of_flipAfter {n : Nat} {t u : Text} (h : flipAfter n t = .ok u) :
    ∃ v, u = t.take n ++ v ∧ Flips (t.drop n) v := by
  fun_induction flipAfter n t generalizing u with
  | case1 n =>
    cases h
    exact ⟨[], by simp, by simpa using Flips.nil⟩
  | case2 n c rest ih =>
    obtain ⟨u, hu, rfl⟩ := map_eq_ok.1 h
    obtain ⟨v, rfl, hv⟩ := ih hu
    exact ⟨v, rfl, hv⟩
  | case3 => cases h
  | case4 rest n hclosing ih =>
    obtain ⟨u, hu, rfl⟩ := map_eq_ok.1 h
    obtain ⟨v, rfl, hv⟩ := ih hu
    have hset := Flips.set (.of_closingBracket? hclosing) hv
    rw [List.take_succ_cons, List.cons_append, List.take_append_drop] at hset
    exact ⟨_, rfl, hset⟩
  | case5 c rest hc ih =>
    obtain ⟨u, hu, rfl⟩ := map_eq_ok.1 h
    obtain ⟨v, rfl, hv⟩ := ih hu
    exact ⟨_, rfl, .escaped hc hv⟩
  | case6 c rest hc ih =>
    obtain ⟨u, hu, rfl⟩ := map_eq_ok.1 h
    obtain ⟨v, rfl, hv⟩ := ih hu
    exact ⟨_, rfl, .kept (by simpa using hc) hv⟩
  | case7 c rest hb hs hc ih =>
    obtain ⟨u, hu, rfl⟩ := map_eq_ok.1 h
    obtain ⟨v, rfl, hv⟩ := ih hu
    exact ⟨_, rfl, .bare hc hv⟩
  | case8 c rest hb hs hc ih =>
    obtain ⟨u, hu, rfl⟩ := map_eq_ok.1 h
    obtain ⟨v, rfl, hv⟩ := ih hu
    refine ⟨_, rfl, ?_⟩
    by_cases hl : c = '\\'
    · subst hl
      cases rest with
      | nil =>
        cases hu
        exact .lone
      | cons d rest => exact (hs d rest rfl rfl).elim
    · exact .char (by simpa using hc) hl hb hv

lemma flip_eq_ok_iff {t u : Text} : Dialect.flip t = .ok u ↔ Flips t u := by
  constructor
  · intro h
    obtain ⟨v, rfl, hv⟩ := flips_of_flipAfter h
    exact hv
  · exact Flips.flipAfter_eq

/-- A flipped regexp flips back to the regexp it comes from, so that either is read the same as one of its own
dialect. -/
theorem flipped_regexp_flips_back {regexp flipped : Text} (h : Dialect.flip regexp = .ok flipped) :
    Flips regexp flipped ∧ Dialect.flip flipped = .ok regexp ∧ convert flipped false = convert regexp true := by
  have hflips := flip_eq_ok_iff.1 h
  have hback := flip_eq_ok_iff.2 hflips.symm
  refine ⟨hflips, hback, ?_⟩
  rw [convert, hback]
  rfl

def sampleExtended : Text := ['(', '\\', '(', '[', ']', '(', ']', '\\', '[', ')', '+']

def sampleBasic : Text := ['\\', '(', '(', '[', ']', '(', ']', '\\', '[', '\\', ')', '\\', '+']

theorem sampleExtended_flips_back :
    Dialect.flip sampleExtended = .ok sampleBasic ∧ Dialect.flip sampleBasic = .ok sampleExtended ∧
      convert sampleBasic false = convert sampleExtended true ∧
      (convert sampleExtended true).toOption = some sampleExtended := by
  have h : Dialect.flip sampleExtended = .ok sampleBasic := rfl
  obtain ⟨-, hback, hconvert⟩ := flipped_regexp_flips_back h
  exact ⟨h, hback, hconvert, by decide +kernel⟩

end StreamEditor.Dialect
