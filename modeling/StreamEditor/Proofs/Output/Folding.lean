import StreamEditor.Proofs.Output.Listing

namespace StreamEditor

open Edit Outcome

structure Folded (t : Text) (full : List Text) (last : Text) : Prop where
  length_full : ∀ l ∈ full, l.length = 70
  getLast?_full : ∀ l ∈ full, l.getLast? = some '\\'
  length_le : last.length ≤ 70
  suffix : last <:+ t
  left : full = [] ∧ last = t ∨ 2 ≤ last.length

namespace Folded

variable {t last : Text} {full : List Text}

lemma short (h : t.length ≤ foldWidth + 1) : Folded t [] t where
  length_full := by simp
  getLast?_full := by simp
  length_le := h
  suffix := List.suffix_rfl
  left := .inl ⟨rfl, rfl⟩

lemma cut (h : ¬t.length ≤ foldWidth + 1) (hrest : Folded (t.drop foldWidth) full last) :
    Folded t ((t.take foldWidth ++ ['\\']) :: full) last where
  length_full := by
    refine List.forall_mem_cons.2 ⟨?_, hrest.length_full⟩
    rw [List.length_append, List.length_take, Nat.min_eq_left (by omega)]
    rfl
  getLast?_full := List.forall_mem_cons.2 ⟨List.getLast?_concat, hrest.getLast?_full⟩
  length_le := hrest.length_le
  suffix := hrest.suffix.trans (List.drop_suffix _ _)
  left := by
    rcases hrest.left with ⟨-, rfl⟩ | hleft
    · right
      rw [List.length_drop]
      omega
    · exact .inr hleft

lemma last_ne_nil (h : Folded t full last) (ht : t ≠ []) : last ≠ [] := by
  rcases h.left with ⟨-, rfl⟩ | hleft
  · exact ht
  · rintro rfl
    exact absurd hleft (by decide)

lemma getLast?_last (h : Folded t full last) (ht : t ≠ []) : last.getLast? = t.getLast? := by
  obtain ⟨u, rfl⟩ := h.suffix
  rw [List.getLast?_append_of_ne_nil _ (h.last_ne_nil ht)]

end Folded

lemma exists_folded (t : Text) : ∃ full last, foldLine t = full ++ [last] ∧ Folded t full last := by
  fun_induction foldLine t with
  | case1 t h => exact ⟨[], t, rfl, .short h⟩
  | case2 t h ih =>
    obtain ⟨full, last, heq, hfolded⟩ := ih
    exact ⟨_, last, congrArg _ heq, hfolded.cut h⟩

lemma unfoldLines_concat (full : List Text) (last : Text) :
    unfoldLines (full ++ [last]) = full.flatMap List.dropLast ++ last := by
  induction full with
  | nil => rfl
  | cons l full ih =>
    rw [List.cons_append, unfoldLines_cons _ (by simp), ih, List.flatMap_cons, List.append_assoc]

/-- A list command shows the pattern space, with its escapes and a mark at the end, on lines of 70 characters and a last
one that is no longer. All lines but the last end in a backslash, and without it they join up to the listed text. -/
theorem list_shows_folded_text (p : Text) (i : Nat) (c : Command) (m : Machine) (hc : c.action = .list)
    (hp : m.space = p) :
    (m.editor.output.isClosed = false → Succeeds (c.perform i) m fun flow _ => flow = .onward) ∧
      ∀ flow m', c.perform i m = .ok flow m' → ∃ full last, m'.shown = m.shown ++ (full ++ [last]) ∧
        (∀ l ∈ full, l.length = 70 ∧ l.getLast? = some '\\') ∧
        1 ≤ last.length ∧ last.length ≤ 70 ∧ last.getLast? = some '$' ∧
        full.flatMap List.dropLast ++ last = visible p := by
  subst hp
  constructor
  · intro hopen
    obtain ⟨flow, m', hok, hflow, -⟩ := perform_list (i := i) hopen hc
    exact ⟨flow, m', hok, hflow⟩
  · intro flow m' hok
    have hvisible : visible m.space ≠ [] := by simp [visible]
    obtain ⟨full, last, heq, hfolded⟩ := exists_folded (visible m.space)
    refine ⟨full, last, ?_, fun l hl => ⟨hfolded.length_full l hl, hfolded.getLast?_full l hl⟩,
      List.length_pos_of_ne_nil (hfolded.last_ne_nil hvisible), hfolded.length_le, ?_, ?_⟩
    · have hshown := (adds_perform i c flow m' hok).1
      rwa [Command.lines, hc, shownOf_asked, heq] at hshown
    · rw [hfolded.getLast?_last hvisible, visible, List.getLast?_concat]
    · rw [← unfoldLines_concat, ← heq, unfoldLines_foldLine]

example : foldLine (visible (List.replicate 69 'a')) = [List.replicate 69 'a' ++ ['$']] := by
  decide +kernel

theorem list_shows_folded_text_seventy :
    Succeeds (Command.perform 0 ⟨1, none, none, false, .list, none, none⟩)
      ⟨{ pattern := some (List.replicate 70 'a') }, [], 1, false, #[], 0⟩ fun flow m' =>
        flow = .onward ∧ ∃ full last, m'.shown = full ++ [last] ∧ full ≠ [] ∧
          (∀ l ∈ full, l.length = 70 ∧ l.getLast? = some '\\') ∧ last.getLast? = some '$' ∧
          full.flatMap List.dropLast ++ last = List.replicate 70 'a' ++ ['$'] := by
  obtain ⟨hsucceeds, hshows⟩ := list_shows_folded_text (List.replicate 70 'a') 0 ⟨1, none, none, false, .list, none, none⟩
    ⟨{ pattern := some (List.replicate 70 'a') }, [], 1, false, #[], 0⟩ rfl rfl
  obtain ⟨flow, m', hok, hflow⟩ := hsucceeds rfl
  obtain ⟨full, last, hshown, hfull, -, hle, hend, hjoined⟩ := hshows flow m' hok
  refine ⟨flow, m', hok, hflow, full, last, hshown, ?_, hfull, hend, hjoined⟩
  rintro rfl
  have hlast : last = List.replicate 70 'a' ++ ['$'] := hjoined
  rw [hlast] at hle
  exact absurd hle (by decide)

end StreamEditor
