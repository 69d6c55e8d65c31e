import StreamEditor.Proofs.Editor.Safety
import StreamEditor.Proofs.Script.Separators

namespace StreamEditor

open Outcome

lemma Text.trimRight_concat {c : Char} (hc : Text.isWhiteSpace c = false) (t : Text) :
    Text.trimRight (t ++ [c]) = t ++ [c] := by
  rw [Text.trimRight, Text.dropTrailing, List.reverse_concat, List.dropWhile_cons_of_neg (by simp [hc]),
    List.reverse_cons, List.reverse_reverse]

namespace Script

lemma dropComment_cons {c : Char} (hb : Text.isBlank c = false) (hc : c ≠ '#') (t : Text) :
    dropComment (c :: t) = c :: t := by
  rw [dropComment, List.dropWhile_cons_of_neg (by simp [hb])]
  split
  · rename_i heq
    exact absurd (List.cons.inj heq).1 hc
  · rfl

lemma pack_single {line : Text} (hcomment : dropComment line = line) (htrim : Text.trimRight line = line)
    (hlast : continues line = false) : pack [line] = [line] := by
  simp [pack, hcomment, htrim, joinFrom, hlast]

lemma lineCommands_single {line : Text} {c : Command} {n n' : Nat} (hne : line ≠ [])
    (h : command line n = .ok (line.length, some c) n') : lineCommands line n = .ok [c] n' := by
  obtain ⟨d, rest, rfl⟩ := List.exists_cons_of_ne_nil hne
  rw [lineCommands, bind_ok h]
  dsimp only
  rw [List.length_cons, Nat.add_sub_cancel, List.drop_length, lineCommands]
  rfl

lemma program_single {line : Text} {c c' : Command} {n n' : Nat} (hne : line ≠ [])
    (h : command line n = .ok (line.length, some c) n') (hlink : link [c] = .ok [c']) :
    program [line] n = .ok [c'] n' := by
  have hnil : commands [] n' = .ok [] n' := rfl
  have hcommands : commands [line] n = .ok [c] n' := (bind_ok (lineCommands_single hne h)).trans (bind_ok hnil)
  rw [program, bind_ok hcommands, hlink]
  rfl

section

variable {c : Char} {a : Action}

lemma of_plainAction? (h : plainAction? c = some a) :
    Text.isBlank c = false ∧ Text.isWhiteSpace c = false ∧ c ≠ 'I' ∧ c ≠ ',' ∧ c ≠ '!' ∧ c ≠ '#' ∧ c ≠ ';' ∧ c ≠ '\\' ∧
      ['{', '}', 's', 'y'].contains c = false ∧ isFunction c = true ∧ textAction? c = none ∧ wordAction? c = none ∧
      ∀ first, addressesFit c first none = true := by
  have hmem := List.mem_of_find?_eq_some h
  have hletter : a.letter = c := by simpa using List.find?_some h
  simp only [List.mem_cons, List.not_mem_nil, or_false] at hmem
  subst hletter
  rcases hmem with rfl | rfl | rfl | rfl | rfl | rfl | rfl | rfl | rfl | rfl | rfl | rfl | rfl | rfl <;>
  · refine ⟨rfl, by decide, by decide, by decide, by decide, by decide, by decide, by decide, rfl, rfl, rfl, rfl, ?_⟩
    simp [addressesFit, Action.letter]

lemma link_plain (h : plainAction? c = some a) (number : Nat) (first second : Option Address) (negated : Bool) :
    link [⟨number, first, second, negated, a, none, none⟩] =
      .ok [⟨number, first, second, negated, a, none, none⟩] := by
  have hmem := List.mem_of_find?_eq_some h
  simp only [List.mem_cons, List.not_mem_nil, or_false] at hmem
  rcases hmem with rfl | rfl | rfl | rfl | rfl | rfl | rfl | rfl | rfl | rfl | rfl | rfl | rfl | rfl <;> rfl

lemma command_plain {t : Text} {i : Nat} {first : Option Address} (hi : t.length = i + 1)
    (hzero : skipBlanks t 0 = 0) (haddress : address t 0 = .ok (i, first)) (hc : t[i]? = some c)
    (ha : plainAction? c = some a) (n : Nat) :
    command t n = .ok (t.length, some ⟨n, first, none, false, a, none, none⟩) (n + 1) := by
  obtain ⟨hblank, -, -, hcomma, hnot, hcomment, hsemicolon, -, hordinary, hfunction, htext, hword, hfit⟩ :=
    of_plainAction? ha
  have hskip : skipBlanks t i = i := skipBlanks_eq_self hblank hc
  have haddresses : addresses t 0 = .ok (i, first, none, false) := by
    have hend : rangeEnd t first i = .ok (i, none) := by
      rw [rangeEnd, if_neg (by simpa [hc] using hcomma)]
    have hnegation : negation t i = (i, false) := by
      rw [negation, if_neg (by simpa [hc] using hnot)]
    simp only [addresses_eq, hzero, haddress, hskip, hend, hnegation, bind, Except.bind]
  have haction : action t (i + 1) c = .ok (i + 1, a) := by
    have hdrop : t.drop (i + 1) = [] := List.drop_of_length_le hi.le
    have hargument : argument t (i + 1) = .ok (i + 1, []) := by
      rw [argument, skipBlanks, hdrop]
      change tail _ (i + 1) = _
      rw [tail, if_neg (by omega), hdrop]
      rfl
    rw [action_of_ordinary hordinary, htext]
    change argument _ _ >>= worded c = _
    rw [hargument]
    simp [worded, hword, ha, bind, Except.bind]
  rw [command_eq haddresses, function_eq (by rw [hskip, hc]) hcomment, hskip, hi]
  exact named_eq_ok.2 (.inr ⟨by simp [hcomment, hsemicolon], hfunction, hfit first, rfl, _, haction, rfl⟩)

end

end Script

section

variable {m : Machine} {lines : List Text} {p p' : Program} {n : Nat}

lemma load_of_program (hp : Script.program (Script.pack lines) m.nextNumber = .ok p n)
    (hprepare : p.prepare ⟨m.editor.extended, m.deferred⟩ = .done p') (hfiles : p'.filterMap Command.outputFile? = []) :
    ∃ m₁, loadLines lines m = .ok () m₁ ∧ m₁.editor.program = some p' := by
  have hcreate (store : Store) : p'.createFiles store = .done store := by
    rw [Program.createFiles, hfiles]
    rfl
  have hread := readProgram_eq (m := { m with editor := { m.editor with
    quiet := asksQuiet lines || m.editor.quiet } }) hp
  rw [loadLines_eq, install, bind_ok hread, bind_ok (show (get : Edit Machine) _ = .ok _ _ from rfl)]
  dsimp only
  rw [hprepare, bind_ok (show settle (Attempt.done p') _ _ = .ok () _ from rfl),
    bind_ok (show (get : Edit Machine) _ = .ok _ _ from rfl)]
  dsimp only [Attempt.done]
  rw [hcreate]
  exact ⟨_, rfl, rfl⟩

variable {line : Text} {c c' : Command} (hpack : Script.pack [line] = [line])
  (hprogram : Script.program [line] m.nextNumber = .ok [c] n)
include hpack hprogram

lemma load_single (hprepare : c.prepare ⟨m.editor.extended, m.deferred⟩ = .done c') (hfile : c'.outputFile? = none) :
    ∃ m₁, loadLines [line] m = .ok () m₁ ∧ m₁.editor.program = some [c'] := by
  rw [← hpack] at hprogram
  refine load_of_program hprogram ?_ (by simp [hfile])
  rw [Program.prepare, hprepare]
  rfl

lemma not_load_single {e : Failure} (hprepare : (c.prepare ⟨m.editor.extended, m.deferred⟩).failure = some e)
    (m₁ : Machine) : loadLines [line] m ≠ .ok () m₁ := by
  intro hload
  rw [← hpack] at hprogram
  obtain ⟨hnone, -⟩ := editor_of_loadLines hload hprogram
  rw [Program.prepare, Attempt.andThen, hprepare] at hnone
  cases hnone

end

end StreamEditor
