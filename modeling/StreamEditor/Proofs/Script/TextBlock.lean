import Mathlib.Data.List.Basic
import StreamEditor.Proofs.Script.Links
import StreamEditor.Proofs.Script.Single

/-! Blocks of text in a script. Their lines are joined as all lines of a script are, so that one that looks like a
comment ends the block. -/

namespace StreamEditor

open Outcome

lemma Text.replacePair_eq_self {a : Char} {t : Text} (h : a ∉ t) (b new : Char) : Text.replacePair a b new t = t := by
  fun_induction Text.replacePair a b new t with
  | case1 x y rest hxy ih => exact absurd (hxy.1 ▸ List.mem_cons_self) h
  | case2 x y rest hxy ih => rw [ih fun hmem => h (List.mem_cons_of_mem x hmem)]
  | case3 t ht => rfl

lemma Text.cons_join (c : Char) {ts : List Text} (h : ts ≠ []) : c :: Text.join [c] ts = ts.flatMap (c :: ·) := by
  induction ts with
  | nil => exact absurd rfl h
  | cons t ts ih =>
    rw [List.flatMap_cons]
    cases ts with
    | nil => rw [Text.join, List.intercalate_singleton, List.flatMap_nil, List.append_nil]
    | cons t' ts =>
      rw [Text.join, List.intercalate_cons_cons, ← ih (List.cons_ne_nil t' ts), Text.join]
      simp

namespace Script

def continued : List Text → List Text
  | [] => []
  | [t] => [t]
  | t :: t' :: ts => (t ++ ['\\']) :: continued (t' :: ts)

def textBlock (letter : Char) (ts : List Text) : List Text := [letter, '\\'] :: continued ts

def isComment (t : Text) : Bool := (t.dropWhile Text.isBlank).head? = some '#'

abbrev cleaned (line : Text) : Text := Text.trimRight (dropComment line)

section

variable {t : Text}

lemma isComment_concat (t : Text) : isComment (t ++ ['\\']) = isComment t := by
  rw [isComment, isComment, List.dropWhile_append]
  cases t.dropWhile Text.isBlank <;> rfl

lemma dropComment_of_not_isComment (h : isComment t = false) : dropComment t = t := by
  rw [dropComment]
  split
  · rename_i hdrop
    rw [isComment, hdrop] at h
    cases h
  · rfl

lemma dropComment_of_isComment (h : isComment t = true) (hn : '\n' ∉ t) : dropComment t = [] := by
  obtain ⟨rest, hdrop⟩ : ∃ rest, t.dropWhile Text.isBlank = '#' :: rest := by
    rw [isComment, decide_eq_true_iff] at h
    obtain ⟨rest, hrest⟩ := List.head?_eq_some_iff.1 h
    exact ⟨rest, hrest⟩
  rw [dropComment, hdrop]
  refine List.dropWhile_eq_nil_iff.2 fun c hc => ?_
  have hmem : c ∈ t := (List.dropWhile_sublist Text.isBlank).mem (hdrop ▸ List.mem_cons_of_mem _ hc)
  simp only [ne_eq, decide_not, Bool.not_eq_eq_eq_not, Bool.not_true, decide_eq_false_iff_not]
  rintro rfl
  exact hn hmem

end

def IsTextLine (t : Text) : Prop := '\\' ∉ t ∧ '\n' ∉ t ∧ Text.trimRight t = t

section

variable {t : Text} {before after rest : List Text}

lemma joinFrom_continues (w line : Text) (lines : List Text) :
    joinFrom (w ++ ['\\']) (line :: lines) = joinFrom (w ++ '\n' :: line) lines := by
  rw [joinFrom, if_pos (by rw [continues, List.getLast?_concat]; rfl), List.dropLast_concat]

lemma joinFrom_ends {current : Text} (h : continues current = false) (lines : List Text) :
    joinFrom current (lines.map cleaned) = current :: pack lines := by
  cases lines with
  | nil => simp [joinFrom, h, pack]
  | cons line lines => simp [joinFrom, h, pack]

lemma continued_cons (t : Text) (h : rest ≠ []) : continued (t :: rest) = (t ++ ['\\']) :: continued rest := by
  obtain ⟨t', rest, rfl⟩ := List.exists_cons_of_ne_nil h
  rfl

lemma cleaned_continued (h : isComment t = false) : cleaned (t ++ ['\\']) = t ++ ['\\'] := by
  rw [cleaned, dropComment_of_not_isComment (by rwa [isComment_concat]), Text.trimRight_concat (by decide)]

-- The induction is on the lines taken; what they make of the first one grows at its end.
lemma joinFrom_before (hb : ∀ t ∈ before, isComment t = false) (hr : rest ≠ []) (w : Text) :
    joinFrom (w ++ ['\\']) ((continued (before ++ rest)).map cleaned) =
      joinFrom (w ++ before.flatMap ('\n' :: ·) ++ ['\\']) ((continued rest).map cleaned) := by
  induction before generalizing w with
  | nil => simp
  | cons t before ih =>
    obtain ⟨ht, hb⟩ := List.forall_mem_cons.1 hb
    rw [List.cons_append, continued_cons t (by simp [hr]), List.map_cons, cleaned_continued ht, joinFrom_continues]
    have hw : w ++ '\n' :: (t ++ ['\\']) = (w ++ '\n' :: t) ++ ['\\'] := by simp
    rw [hw, ih hb]
    simp

lemma join_comment_ne (ht : isComment t = true) :
    Text.join ['\n'] (before ++ t :: after) ≠ Text.join ['\n'] (before ++ [[]]) := by
  intro h
  have h' := congrArg (List.cons '\n') h
  rw [Text.cons_join '\n' (by simp), Text.cons_join '\n' (by simp), List.flatMap_append, List.flatMap_append,
    List.append_cancel_left_eq] at h'
  have hempty : t = [] := by
    simp only [List.flatMap_cons, List.cons_append, List.cons.injEq, true_and, List.nil_append, List.flatMap_nil,
      List.append_eq_nil_iff] at h'
    exact h'.1
  rw [hempty] at ht
  cases ht

lemma exists_first_comment {ts : List Text} (h : ¬∀ t ∈ ts, isComment t = false) :
    ∃ before t after, ts = before ++ t :: after ∧ (∀ s ∈ before, isComment s = false) ∧ isComment t = true := by
  obtain ⟨t, ht, hcomment⟩ : ∃ t ∈ ts, isComment t = true := by simpa using h
  obtain ⟨s, hs⟩ := Option.isSome_iff_exists.1 (List.find?_isSome.2 ⟨t, ht, hcomment⟩)
  obtain ⟨hcomment, before, after, hts, hbefore⟩ := List.find?_eq_some_iff_append.1 hs
  exact ⟨before, s, after, hts, by simpa using hbefore, hcomment⟩

lemma notMem_join {c : Char} (hc : c ≠ '\n') {ts : List Text} (hts : ∀ t ∈ ts, c ∉ t) : c ∉ Text.join ['\n'] ts := by
  intro hmem
  rcases eq_or_ne ts [] with rfl | hne
  · exact List.not_mem_nil hmem
  · have hflat := List.mem_cons_of_mem '\n' hmem
    rw [Text.cons_join '\n' hne, List.mem_flatMap] at hflat
    obtain ⟨t, ht, hct⟩ := hflat
    exact hts t ht ((List.mem_cons.1 hct).resolve_left hc)

end

section

variable {letter : Char} {f : Text → Action} (hf : textAction? letter = some f)
include hf

lemma of_textAction? : letter = 'a' ∧ f = .append ∨ letter = 'i' ∧ f = .insert ∨ letter = 'c' ∧ f = .change := by
  have hmem := List.mem_of_find?_eq_some hf
  have hletter : (f []).letter = letter := by simpa using List.find?_some hf
  simp only [List.mem_cons, List.not_mem_nil, or_false] at hmem
  rcases hmem with rfl | rfl | rfl
  · exact .inl ⟨hletter.symm, rfl⟩
  · exact .inr (.inl ⟨hletter.symm, rfl⟩)
  · exact .inr (.inr ⟨hletter.symm, rfl⟩)

lemma textAction?_injective : Function.Injective f := by
  rcases of_textAction? hf with ⟨-, rfl⟩ | ⟨-, rfl⟩ | ⟨-, rfl⟩ <;> exact fun _ _ h => by cases h; rfl

lemma pack_textBlock_eq (ts : List Text) :
    pack (textBlock letter ts) = joinFrom ([letter] ++ ['\\']) ((continued ts).map cleaned) := by
  have hclean : cleaned [letter, '\\'] = [letter] ++ ['\\'] := by
    rcases of_textAction? hf with ⟨rfl, -⟩ | ⟨rfl, -⟩ | ⟨rfl, -⟩ <;> decide
  rw [← hclean]
  rfl

lemma pack_textBlock {ts : List Text} (hne : ts ≠ []) (hts : ∀ t ∈ ts, IsTextLine t)
    (hcomment : ∀ t ∈ ts, isComment t = false) :
    pack (textBlock letter ts) = [letter :: '\n' :: Text.join ['\n'] ts] := by
  obtain ⟨before, t, rfl⟩ := (List.eq_nil_or_concat' ts).resolve_left hne
  obtain ⟨hbefore, ht⟩ := List.forall_mem_append.1 hcomment
  have hlast : cleaned t = t := by
    rw [cleaned, dropComment_of_not_isComment (ht t List.mem_cons_self)]
    exact (hts t (by simp)).2.2
  have hends (w : Text) : continues (w ++ '\n' :: t) = false := by
    have hbackslash := (hts t (by simp)).1
    rw [continues, List.getLast?_append, List.getLast?_cons]
    cases hget : t.getLast? with
    | none => rfl
    | some c =>
      refine decide_eq_false ?_
      rintro hc
      cases hc
      exact hbackslash (List.mem_of_getLast? hget)
  rw [pack_textBlock_eq hf, joinFrom_before hbefore (List.cons_ne_nil t []), continued, List.map_cons, hlast,
    joinFrom_continues, List.map_nil]
  rw [joinFrom, hends, if_neg Bool.false_ne_true, Text.cons_join '\n' hne, List.flatMap_append, List.flatMap_singleton,
    List.append_assoc]
  rfl

lemma pack_textBlock_comment {before after : List Text} {t : Text} (hbefore : ∀ s ∈ before, isComment s = false)
    (ht : isComment t = true) (hn : '\n' ∉ t) :
    pack (textBlock letter (before ++ t :: after)) =
      (letter :: '\n' :: Text.join ['\n'] (before ++ [[]])) :: pack (continued after) := by
  have hempty : (continued (t :: after)).map cleaned = [] :: (continued after).map cleaned := by
    cases after with
    | nil =>
      change [cleaned t] = _
      rw [cleaned, dropComment_of_isComment ht hn]
      rfl
    | cons s after =>
      rw [continued, List.map_cons, cleaned,
        dropComment_of_isComment (by rwa [isComment_concat]) (by simpa using hn)]
      rfl
  have hends (w : Text) : continues (w ++ ['\n']) = false := by
    rw [continues, List.getLast?_concat]
    rfl
  rw [pack_textBlock_eq hf, joinFrom_before hbefore (List.cons_ne_nil t after), hempty, joinFrom_continues,
    joinFrom_ends (hends _), Text.cons_join '\n' (by simp), List.flatMap_append, List.append_assoc]
  rfl

lemma command_text {t : Text} (ht : '\\' ∉ t) (n : Nat) :
    command (letter :: '\n' :: t) n =
      .ok ((letter :: '\n' :: t).length, some ⟨n, none, none, false, f ('\n' :: t), none, none⟩) (n + 1) := by
  have hargument : textArgument (letter :: '\n' :: t) 1 = ((letter :: '\n' :: t).length, '\n' :: t) := by
    have hskip : skipBlanks (letter :: '\n' :: t) 1 = 1 := skipBlanks_eq_self (c := '\n') (by decide) rfl
    simp only [textArgument, hskip]
    rw [if_neg (by simp)]
    exact congrArg _ (Text.replacePair_eq_self (by simpa using ht) 'n' '\n')
  have haction : action (letter :: '\n' :: t) 1 letter = .ok ((letter :: '\n' :: t).length, f ('\n' :: t)) := by
    have hordinary : ['{', '}', 's', 'y'].contains letter = false := by
      rcases of_textAction? hf with ⟨rfl, -⟩ | ⟨rfl, -⟩ | ⟨rfl, -⟩ <;> rfl
    rw [action_of_ordinary hordinary, hf, hargument]
  rcases of_textAction? hf with ⟨rfl, -⟩ | ⟨rfl, -⟩ | ⟨rfl, -⟩
  all_goals
    rw [command_eq (show addresses _ 0 = .ok (0, none, none, false) from rfl)]
    exact named_eq_ok.2 (.inr ⟨by decide, by decide, rfl, rfl, _, haction, rfl⟩)

lemma link_text (n : Nat) (t : Text) :
    link [⟨n, none, none, false, f ('\n' :: t), none, none⟩] = .ok [⟨n, none, none, false, f t, none, none⟩] := by
  rcases of_textAction? hf with ⟨-, rfl⟩ | ⟨-, rfl⟩ | ⟨-, rfl⟩ <;> rfl

lemma resolve_text (cs : List Command) (n : Nat) (t : Text) :
    resolve cs ⟨n, none, none, false, f ('\n' :: t), none, none⟩ = .ok ⟨n, none, none, false, f t, none, none⟩ := by
  rcases of_textAction? hf with ⟨-, rfl⟩ | ⟨-, rfl⟩ | ⟨-, rfl⟩ <;> rfl

lemma of_program_text {t : Text} (ht : '\\' ∉ t) {lines : List Text} {n n' : Nat} {p : Program}
    (h : program ((letter :: '\n' :: t) :: lines) n = .ok p n') :
    ∃ c rest, p = c :: rest ∧ c.first = none ∧ c.second = none ∧ c.action = f t := by
  obtain ⟨cs, n₁, hcommands, hlink⟩ := link_of_program h
  obtain ⟨hne, -, ends, -, hlinked⟩ := of_link hlink
  obtain ⟨c, rest, rfl⟩ := List.exists_cons_of_ne_nil hne
  obtain ⟨c₀, d, hc₀, hd, hc⟩ := hlinked 0 c rfl
  obtain ⟨first, n₂, hfirst, hcommands⟩ := Outcome.bind_eq_ok.1 hcommands
  rw [lineCommands_single (List.cons_ne_nil _ _) (command_text hf ht n)] at hfirst
  cases hfirst
  obtain ⟨more, n₃, -, hcommands⟩ := Outcome.bind_eq_ok.1 hcommands
  cases hcommands
  cases hc₀
  rw [resolve_text hf] at hd
  cases hd
  refine ⟨c, rest, rfl, ?_⟩
  rw [hc, linkAt]
  split <;> exact ⟨rfl, rfl, rfl⟩

end

end Script

section

variable {letter : Char} {f : Text → Action} (hf : Script.textAction? letter = some f)
include hf

lemma prepare_text {mode : RegexpMode} {c : Command} {t : Text} (hfirst : c.first = none) (hsecond : c.second = none)
    (ha : c.action = f t) : c.prepare mode = .done c := by
  rw [Command.prepare, Command.prepareFirst, hfirst]
  simp only [Attempt.andThen, Attempt.done, Command.prepareSecond, hsecond, Command.prepareAction, ha]
  rcases Script.of_textAction? hf with ⟨-, rfl⟩ | ⟨-, rfl⟩ | ⟨-, rfl⟩ <;> rfl

lemma load_textBlock {ts : List Text} (hne : ts ≠ []) (hts : ∀ t ∈ ts, Script.IsTextLine t)
    (hcomment : ∀ t ∈ ts, Script.isComment t = false) (m : Machine) :
    ∃ m₁, loadLines (Script.textBlock letter ts) m = .ok () m₁ ∧
      m₁.editor.program = some [⟨m.nextNumber, none, none, false, f (Text.join ['\n'] ts), none, none⟩] := by
  have hjoin : '\\' ∉ Text.join ['\n'] ts := Script.notMem_join (by decide) fun t ht => (hts t ht).1
  have hprogram := Script.program_single (List.cons_ne_nil _ _) (Script.command_text hf hjoin m.nextNumber)
    (Script.link_text hf _ _)
  rw [← Script.pack_textBlock hf hne hts hcomment] at hprogram
  refine load_of_program hprogram ?_ ?_
  · rw [Program.prepare, prepare_text hf rfl rfl rfl]
    rfl
  · rcases Script.of_textAction? hf with ⟨-, rfl⟩ | ⟨-, rfl⟩ | ⟨-, rfl⟩ <;> rfl

lemma of_load_comment {before after : List Text} {t : Text} (hts : ∀ s ∈ before ++ t :: after, Script.IsTextLine s)
    (hbefore : ∀ s ∈ before, Script.isComment s = false) (ht : Script.isComment t = true) {m m₁ : Machine}
    (hload : loadLines (Script.textBlock letter (before ++ t :: after)) m = .ok () m₁) :
    ∃ c rest, m₁.editor.program = some (c :: rest) ∧ c.action = f (Text.join ['\n'] (before ++ [[]])) := by
  have hjoin : '\\' ∉ Text.join ['\n'] (before ++ [[]]) := by
    refine Script.notMem_join (by decide) (List.forall_mem_append.2 ⟨fun s hs => ?_, by simp⟩)
    exact (hts s (List.mem_append_left _ hs)).1
  obtain ⟨p, n, hp⟩ := program_of_loadLines hload
  obtain ⟨-, hprogram⟩ := loaded_of_loadLines hload hp
  rw [Script.pack_textBlock_comment hf hbefore ht (hts t (by simp)).2.1] at hp
  obtain ⟨c, rest, rfl, hfirst, hsecond, haction⟩ := Script.of_program_text hf hjoin hp
  rw [hprogram, Program.prepare, prepare_text hf hfirst hsecond haction]
  exact ⟨c, _, rfl, haction⟩

end

/-- Lines of text after `a\`, `i\` or `c\` are loaded as one command with these lines as its text if and only if none of
them looks like a comment. The first that does is emptied and ends the text, and what comes after it is read as commands.
-/
theorem text_block_is_one_command_iff {letter : Char} {f : Text → Action} (hf : Script.textAction? letter = some f)
    {ts : List Text} (hne : ts ≠ []) (hts : ∀ t ∈ ts, Script.IsTextLine t) (m : Machine) :
    ((∃ m₁, loadLines (Script.textBlock letter ts) m = .ok () m₁ ∧
        m₁.editor.program = some [⟨m.nextNumber, none, none, false, f (Text.join ['\n'] ts), none, none⟩]) ↔
      ∀ t ∈ ts, Script.isComment t = false) ∧
    ∀ before t after, ts = before ++ t :: after → (∀ s ∈ before, Script.isComment s = false) →
      Script.isComment t = true →
      Script.pack (Script.textBlock letter ts) =
        (letter :: '\n' :: Text.join ['\n'] (before ++ [[]])) :: Script.pack (Script.continued after) ∧
      ∀ m₁, loadLines (Script.textBlock letter ts) m = .ok () m₁ →
        ∃ c rest, m₁.editor.program = some (c :: rest) ∧ c.action = f (Text.join ['\n'] (before ++ [[]])) := by
  refine ⟨⟨?_, fun hcomment => load_textBlock hf hne hts hcomment m⟩, ?_⟩
  · rintro ⟨m₁, hload, hprogram⟩
    by_contra hcomment
    obtain ⟨before, t, after, rfl, hbefore, ht⟩ := Script.exists_first_comment hcomment
    obtain ⟨c, rest, hcut, haction⟩ := of_load_comment hf hts hbefore ht hload
    rw [hprogram] at hcut
    cases hcut
    exact Script.join_comment_ne ht (Script.textAction?_injective hf haction)
  · rintro before t after rfl hbefore ht
    exact ⟨Script.pack_textBlock_comment hf hbefore ht (hts t (by simp)).2.1,
      fun m₁ hload => of_load_comment hf hts hbefore ht hload⟩

def sampleBlock : List Text := [[], [' ', ' ', 'p'], ['}']]

theorem sampleBlock_is_one_command :
    sampleBlock ≠ [] ∧ (∀ t ∈ sampleBlock, Script.IsTextLine t) ∧ (∀ t ∈ sampleBlock, Script.isComment t = false) ∧
      ∃ m₁, loadLines (Script.textBlock 'i' sampleBlock) sampleMachine = .ok () m₁ ∧
        m₁.editor.program = some [⟨1, none, none, false, .insert ['\n', ' ', ' ', 'p', '\n', '}'], none, none⟩] := by
  have hts : ∀ t ∈ sampleBlock, Script.IsTextLine t := by
    have htrim : ∀ t ∈ sampleBlock, Text.trimRight t = t := by
      rw [sampleBlock, List.forall_mem_cons, List.forall_mem_cons, List.forall_mem_singleton]
      decide
    exact fun t ht => ⟨by revert t; simp [sampleBlock], by revert t; simp [sampleBlock], htrim t ht⟩
  have hcomment : ∀ t ∈ sampleBlock, Script.isComment t = false := by
    rw [sampleBlock, List.forall_mem_cons, List.forall_mem_cons, List.forall_mem_singleton]
    decide
  have hletter : Script.textAction? 'i' = some .insert := rfl
  obtain ⟨m₁, hload, hprogram⟩ := (text_block_is_one_command_iff hletter (by decide) hts sampleMachine).1.2 hcomment
  exact ⟨by decide, hts, hcomment, m₁, hload, hprogram⟩

theorem comment_in_text_block_is_lost :
    ∃ m₁, loadLines [['a', '\\'], ['x', '\\'], ['#', 'y']] sampleMachine = .ok () m₁ ∧
      m₁.editor.program = some [⟨1, none, none, false, .append ['x', '\n'], none, none⟩] := by
  have hprogram : Script.program (Script.pack [['a', '\\'], ['x', '\\'], ['#', 'y']]) 1 =
      .ok [⟨1, none, none, false, .append ['x', '\n'], none, none⟩] 2 := by
    have hpack : Script.pack [['a', '\\'], ['x', '\\'], ['#', 'y']] = [['a', '\n', 'x', '\n']] := by decide
    have hletter : Script.textAction? 'a' = some .append := rfl
    rw [hpack]
    exact Script.program_single (List.cons_ne_nil _ _) (Script.command_text hletter (by decide) 1)
      (Script.link_text hletter 1 ['x', '\n'])
  exact load_of_program (m := sampleMachine) hprogram rfl rfl

end StreamEditor
