import StreamEditor.Proofs.Script.Separators
import StreamEditor.Proofs.Script.Unaddressed
import StreamEditor.Script.Link

/-! Reading a script goes forward. No scanner turns back or leaves its line, every command takes at least one character
of a line that is not empty, and so the reading of a script comes to its end. -/

namespace StreamEditor

namespace Script

def Onward {α : Type} (text : Text) (i : Nat) (r : Except Failure (Nat × α)) : Prop :=
  ∀ j a, r = .ok (j, a) → i ≤ j ∧ j ≤ text.length

section

variable {α β : Type} {text : Text} {i j : Nat}

lemma Onward.ok (hij : i ≤ j) (hj : j ≤ text.length) (a : α) : Onward text i (.ok (j, a)) := by
  intro k b h
  cases h
  exact ⟨hij, hj⟩

lemma Onward.error (e : Failure) : Onward text i (.error e : Except Failure (Nat × α)) := by
  intro k b h
  cases h

lemma Onward.from_earlier {r : Except Failure (Nat × α)} (h : Onward text j r) (hij : i ≤ j) : Onward text i r :=
  fun k a hk => ⟨hij.trans (h k a hk).1, (h k a hk).2⟩

lemma Onward.bind {x : Except Failure (Nat × α)} {f : Nat × α → Except Failure (Nat × β)} (hx : Onward text i x)
    (hf : ∀ j a, j ≤ text.length → Onward text j (f (j, a))) : Onward text i (x >>= f) := by
  intro k b h
  obtain ⟨⟨j, a⟩, hj, hk⟩ := bind_eq_ok.1 h
  obtain ⟨hij, hjl⟩ := hx j a hj
  exact ((hf j a hjl).from_earlier hij) k b hk

lemma Onward.map {x : Except Failure (Nat × α)} (hx : Onward text i x) (f : α → β) :
    Onward text i (x.map fun r => (r.1, f r.2)) := by
  intro k b h
  obtain ⟨⟨j, a⟩, hj, hk⟩ := map_eq_ok.1 h
  cases hk
  exact hx j a hj

end

lemma le_skipBlanks (text : Text) (i : Nat) : i ≤ skipBlanks text i := Nat.le_add_right _ _

section

variable {text : Text} {i : Nat} (hi : i ≤ text.length)
include hi

lemma onward_number : Onward text i (number text i) := by
  intro j n h
  obtain ⟨⟨hj, -⟩, -⟩ := takes_number h
  exact ⟨hj ▸ Nat.le_add_right _ _, number_le hi h⟩

lemma onward_regexp (delim : Option Char) : Onward text i (regexp text i delim) := by
  intro j source h
  cases source with
  | none =>
    rw [eq_of_regexp_none h]
    exact ⟨Nat.le_refl i, hi⟩
  | some source =>
    obtain ⟨-, hij, hj⟩ := regexp_extended h []
    exact ⟨Nat.le_of_add_right_le hij, hj⟩

omit hi in
lemma setEnd_onward {j : Nat} (h : setEnd text i = .ok j) : i ≤ j ∧ j < text.length := by
  rw [setEnd] at h
  cases hclosing : Dialect.closingBracket? (text.drop i) with
  | none =>
    rw [hclosing] at h
    cases h
  | some k =>
    rw [hclosing] at h
    cases h
    have hlt := Dialect.closingBracket?_lt hclosing
    rw [List.length_drop] at hlt
    omega

lemma onward_replacement (delim : Char) : Onward text i (replacement text i delim) := by
  rw [replacement]
  split
  · exact .ok (Nat.le_refl i) hi none
  · cases hn : delimiter? delim (text.drop i) with
    | none => exact .error _
    | some n => exact .ok (by omega) (delimiter?_extended hi hn []).2.2 _

lemma onward_transliterationPart (sep : Char) : Onward text i (transliterationPart text i sep) := by
  rw [transliterationPart]
  cases hn : delimiter? sep (text.drop i) with
  | none => exact .error _
  | some n => exact .ok (by omega) (delimiter?_extended hi hn []).2.2 _

lemma onward_tail : Onward text i (tail text i) := by
  have hlength := length_takeWhile_dropWhile (!isTerminator ·) hi
  rw [tail_eq hi]
  cases hrest : (text.drop i).dropWhile (!isTerminator ·) with
  | nil =>
    rw [hrest] at hlength
    exact .ok (Nat.le_add_right i _) hlength.le _
  | cons c rest =>
    rw [hrest, List.length_cons] at hlength
    by_cases hc : c = '#'
    · rw [hc]
      exact .ok hi (Nat.le_refl _) _
    · rw [stopAt_cons hc]
      split
      · exact .ok (by omega) (by omega) _
      · exact .ok (Nat.le_add_right _ _) (by omega) _

lemma onward_lettered (source : Option Text) : Onward text i (.ok (lettered text (i, source))) := by
  cases source with
  | none => exact .ok (Nat.le_refl i) hi _
  | some source =>
    rw [lettered]
    split
    · rename_i hI
      exact .ok (Nat.le_succ i) (List.getElem?_eq_some_iff.1 hI).1 _
    · exact .ok (Nat.le_refl i) hi _

lemma onward_marked : Onward text i (marked text i) := by
  have hlettered {k : Nat} {delim : Option Char} (hk : k ≤ text.length) :
      Onward text k ((regexp text k delim).map (lettered text)) :=
    (onward_regexp hk delim).bind fun j source hj => onward_lettered hj source
  rw [marked]
  split
  · rename_i hlast
    exact .ok (Nat.le_succ i) (List.getElem?_eq_some_iff.1 hlast).1 _
  · split
    · rename_i hb
      exact (hlettered (List.getElem?_eq_some_iff.1 hb).1).from_earlier (Nat.le_succ i)
    · exact hlettered hi

lemma onward_address : Onward text i (address text i) := by
  rw [address_eq]
  refine (onward_number hi).bind fun j n hj => ?_
  rcases n with _ | _ | n
  · exact onward_marked hj
  · exact onward_marked hj
  · exact .ok (Nat.le_refl j) hj _

lemma onward_address_skipBlanks : Onward text i (address text (skipBlanks text i)) :=
  (onward_address (skipBlanks_le hi)).from_earlier (le_skipBlanks text i)

lemma onward_rangeEnd (first : Option Address) : Onward text i (rangeEnd text first i) := by
  rw [rangeEnd]
  split
  · rename_i hcomma
    split
    · exact .error _
    · refine ((onward_address_skipBlanks (List.getElem?_eq_some_iff.1 hcomma).1).from_earlier (Nat.le_succ i)).bind
        fun j second hj => ?_
      dsimp only
      split
      · exact .error _
      · exact .ok (Nat.le_refl j) hj _
  · exact .ok (Nat.le_refl i) hi _

lemma negation_onward : i ≤ (negation text i).1 ∧ (negation text i).1 ≤ text.length := by
  refine ⟨?_, (negation_extended hi []).2⟩
  rw [negation]
  split
  · exact Nat.le_succ i
  · exact Nat.le_refl i

lemma onward_addresses : Onward text i (addresses text i) := by
  rw [addresses_eq]
  refine (onward_address_skipBlanks hi).bind fun j first hj => ?_
  refine ((onward_rangeEnd (skipBlanks_le hj) first).from_earlier (le_skipBlanks text j)).bind fun k second hk => ?_
  obtain ⟨hneg, hle⟩ := negation_onward (skipBlanks_le hk)
  exact .ok ((le_skipBlanks text k).trans hneg) hle _

lemma onward_function : Onward text i (.ok (function text i)) := by
  rw [function]
  cases hd : text.drop (skipBlanks text i) with
  | nil => exact .ok hi (Nat.le_refl _) _
  | cons c rest =>
    dsimp only
    split
    · exact .ok hi (Nat.le_refl _) _
    · have hlength := length_of_drop_eq_cons hd
      exact .ok ((le_skipBlanks text i).trans (Nat.le_succ _)) (by omega) _

lemma onward_argument : Onward text i (argument text i) :=
  (onward_tail (skipBlanks_le hi)).from_earlier (le_skipBlanks text i)

lemma onward_textArgument : Onward text i (.ok (textArgument text i)) := .ok hi (Nat.le_refl _) _

lemma onward_pieces : Onward text i (pieces text i) := by
  rw [pieces]
  refine (onward_regexp hi none).bind fun j pattern hj => ?_
  dsimp only
  cases charBefore text j with
  | none => exact .error _
  | some delim => exact (onward_replacement hj delim).bind fun k new hk => .ok (Nat.le_refl k) hk _

lemma onward_substitution : Onward text i (substitution text i) := by
  rw [substitution_eq]
  refine (onward_pieces hi).bind fun j r hj => (onward_tail hj).bind fun k flags hk => ?_
  dsimp only
  cases flagged r.1 r.2 flags with
  | error e => exact .error e
  | ok s => exact .ok (Nat.le_refl k) hk s

omit hi in
lemma onward_sides : Onward text i (sides text i) := by
  rw [sides]
  split
  · exact .error _
  · cases hsep : text[i]? with
    | none => exact .error _
    | some sep =>
      have hlt : i + 1 ≤ text.length := (List.getElem?_eq_some_iff.1 hsep).1
      refine ((onward_transliterationPart hlt sep).from_earlier (Nat.le_succ i)).bind fun j source hj => ?_
      exact (onward_transliterationPart hj sep).bind fun k dest hk => .ok (Nat.le_refl k) hk _

omit hi in
lemma onward_transliteration : Onward text i (transliteration text i) := by
  rw [transliteration_eq]
  refine onward_sides.bind fun j r hj => (onward_tail hj).bind fun k rest hk => ?_
  dsimp only
  split
  · exact .ok (Nat.le_refl k) hk _
  · exact .error _

lemma onward_worded (c : Char) (word : Text) : Onward text i (worded c (i, word)) := by
  intro j a h
  rw [(worded_extended h 0).1]
  exact ⟨Nat.le_refl i, hi⟩

-- One case for each way in which an action takes its arguments.
lemma onward_action (c : Char) : Onward text i (action text i c) := by
  by_cases hspecial : ['{', '}', 's', 'y'].contains c = true
  · simp only [List.contains_cons, List.contains_nil, Bool.or_false, Bool.or_eq_true, beq_iff_eq] at hspecial
    rcases hspecial with rfl | rfl | rfl | rfl
    · exact .ok (Nat.le_refl i) hi _
    · exact .ok (Nat.le_refl i) hi _
    · exact (onward_substitution hi).map Action.substitute
    · exact onward_transliteration.map Action.transliterate
  · rw [action_of_ordinary (Bool.not_eq_true _ ▸ hspecial)]
    cases textAction? c with
    | some f => exact .ok hi (Nat.le_refl _) _
    | none => exact (onward_argument hi).bind fun j word hj => onward_worded hj c word

end

lemma one_le_function {text : Text} (h : text ≠ []) (i : Nat) : 1 ≤ (function text i).1 := by
  have hlength : 1 ≤ text.length := List.length_pos_iff.2 h
  rw [function]
  split
  · exact hlength
  · split
    · exact hlength
    · exact Nat.le_add_left 1 _

lemma command_onward {line : Text} {i n n' : Nat} {d : Option Command} (hline : line ≠ [])
    (h : command line n = .ok (i, d) n') : 1 ≤ i ∧ i ≤ line.length := by
  rcases haddr : addresses line 0 with e | ⟨k, first, second, negated⟩
  · rw [command, haddr] at h
    cases h
  rw [command_eq haddr] at h
  have hk := (onward_addresses (Nat.zero_le _) k _ haddr).2
  rcases hf : function line k with ⟨j, _ | c⟩
  all_goals
    have hone : 1 ≤ j := (one_le_function hline k).trans_eq (congrArg Prod.fst hf)
    have hj : j ≤ line.length := (onward_function hk j _ (congrArg Except.ok hf)).2
    rw [hf] at h
  · cases first with
    | some a => cases h
    | none =>
      cases h
      exact ⟨hone, hj⟩
  · rcases named_eq_ok.1 h with ⟨-, -, rfl, -⟩ | ⟨-, -, -, -, a, ha, -⟩
    · exact ⟨hone, hj⟩
    · obtain ⟨hji, hi⟩ := onward_action hj c i a ha
      exact ⟨hone.trans hji, hi⟩

/-- Reading the lines of a script after some commands, with so many commands looked for. A line is cut where the command
found in it ends, and a line of which nothing is left gives way to the next one. -/
inductive Reads : List Command → List Text → Nat → Nat → EStateM.Result Failure Nat (List Command) → Prop
  | done (cs : List Command) (n : Nat) : Reads cs [] n 0 (.ok cs n)
  | next {cs : List Command} {lines : List Text} {n k : Nat} {r : EStateM.Result Failure Nat (List Command)}
      (h : Reads cs lines n k r) : Reads cs ([] :: lines) n k r
  | cut {cs : List Command} {line : Text} {lines : List Text} {n n' i k : Nat} {d : Option Command}
      {r : EStateM.Result Failure Nat (List Command)} (hline : line ≠ []) (hcommand : command line n = .ok (i, d) n')
      (h : Reads (cs ++ d.toList) (line.drop i :: lines) n' k r) : Reads cs (line :: lines) n (k + 1) r
  | stop {cs : List Command} {line : Text} {lines : List Text} {n n' : Nat} {e : Failure} (hline : line ≠ [])
      (hcommand : command line n = .error e n') : Reads cs (line :: lines) n 1 (.error e n')

def linked : EStateM.Result Failure Nat (List Command) → EStateM.Result Failure Nat Program
  | .ok cs n =>
    match link cs with
    | .ok p => .ok p n
    | .error e => .error e.whileParsing n
  | .error e n => .error e.whileParsing n

lemma Reads.unique {cs : List Command} {lines : List Text} {n k k' : Nat}
    {r r' : EStateM.Result Failure Nat (List Command)} (h : Reads cs lines n k r) (h' : Reads cs lines n k' r') :
    k' = k ∧ r' = r := by
  induction h generalizing k' with
  | done =>
    cases h'
    exact ⟨rfl, rfl⟩
  | next _ ih =>
    cases h' with
    | next h' => exact ih h'
    | cut hline => exact absurd rfl hline
    | stop hline => exact absurd rfl hline
  | cut hline hcommand _ ih =>
    cases h' with
    | next => exact absurd rfl hline
    | cut _ hcommand' h' =>
      cases hcommand.symm.trans hcommand'
      obtain ⟨rfl, rfl⟩ := ih h'
      exact ⟨rfl, rfl⟩
    | stop _ hcommand' => cases hcommand.symm.trans hcommand'
  | stop hline hcommand =>
    cases h' with
    | next => exact absurd rfl hline
    | cut _ hcommand' => cases hcommand.symm.trans hcommand'
    | stop _ hcommand' =>
      cases hcommand.symm.trans hcommand'
      exact ⟨rfl, rfl⟩

lemma commands_nil_cons (lines : List Text) : commands ([] :: lines) = commands lines := by
  rw [commands, lineCommands]
  simp

lemma commands_of_error {line : Text} {n n' : Nat} {e : Failure} (hline : line ≠ []) (h : command line n = .error e n')
    (lines : List Text) : commands (line :: lines) n = .error e n' := by
  obtain ⟨c, rest, rfl⟩ := List.exists_cons_of_ne_nil hline
  rw [commands]
  refine Outcome.bind_error ?_
  rw [lineCommands]
  exact Outcome.bind_error h

-- The line is cut where the command ends, since this is not at its beginning.
lemma commands_of_ok {line : Text} {i n n' : Nat} {d : Option Command} (hline : line ≠ [])
    (h : command line n = .ok (i, d) n') (lines : List Text) :
    commands (line :: lines) n = ((d.toList ++ ·) <$> commands (line.drop i :: lines)) n' := by
  obtain ⟨hi, -⟩ := command_onward hline h
  obtain ⟨c, rest, rfl⟩ := List.exists_cons_of_ne_nil hline
  have hdrop : (c :: rest).drop i = rest.drop (i - 1) := by
    obtain ⟨j, rfl⟩ := Nat.exists_eq_add_of_le' hi
    rfl
  rw [hdrop, commands, commands, lineCommands, bind_assoc]
  refine (Outcome.bind_ok h).trans ?_
  simp only [bind_assoc, pure_bind, map_eq_pure_bind, List.append_assoc]

lemma length_flatten_cut_lt {line : Text} {i n n' : Nat} {d : Option Command} (hline : line ≠ [])
    (h : command line n = .ok (i, d) n') (lines : List Text) :
    (line.drop i :: lines).flatten.length < (line :: lines).flatten.length := by
  obtain ⟨hi, hle⟩ := command_onward hline h
  rw [List.flatten_cons, List.flatten_cons, List.length_append, List.length_append, List.length_drop]
  omega

-- The induction is on the characters and the lines that are left.
lemma exists_reads (cs : List Command) (lines : List Text) (n : Nat) :
    ∃ k ≤ lines.flatten.length, Reads cs lines n k (((cs ++ ·) <$> commands lines) n) := by
  induction hsize : lines.flatten.length + lines.length using Nat.strongRecOn generalizing cs lines n with
  | ind size ih =>
    subst hsize
    cases lines with
    | nil =>
      have hdone : ((cs ++ ·) <$> commands []) n = .ok (cs ++ []) n := rfl
      rw [hdone, List.append_nil]
      exact ⟨0, Nat.le_refl 0, .done cs n⟩
    | cons line lines =>
      by_cases hline : line = []
      · subst hline
        obtain ⟨k, hk, h⟩ := ih _ (Nat.lt_succ_self _) cs lines n rfl
        rw [commands_nil_cons]
        exact ⟨k, hk, .next h⟩
      rcases hcommand : command line n with ⟨⟨i, d⟩, n'⟩ | ⟨e, n'⟩
      · have hshorter := length_flatten_cut_lt hline hcommand lines
        obtain ⟨k, hk, h⟩ := ih _ (Nat.add_lt_add_right hshorter _) (cs ++ d.toList) (line.drop i :: lines) n' rfl
        refine ⟨k + 1, hk.trans_lt hshorter, .cut hline hcommand ?_⟩
        rw [Outcome.map_of_eq (commands_of_ok hline hcommand lines)]
        simpa only [Functor.map_map, List.append_assoc] using h
      · have hpos : 0 < (line :: lines).flatten.length := by
          rw [List.flatten_cons, List.length_append]
          exact Nat.add_pos_left (List.length_pos_iff.2 hline) _
        rw [Outcome.map_error (commands_of_error hline hcommand lines)]
        exact ⟨1, hpos, .stop hline hcommand⟩

lemma program_eq_linked (lines : List Text) (n : Nat) : program lines n = linked (commands lines n) := by
  rw [program]
  cases hcommands : commands lines n with
  | ok cs n' =>
    rw [Outcome.bind_ok hcommands, linked]
    cases link cs <;> rfl
  | error e n' =>
    rw [Outcome.bind_error hcommands]
    rfl

structure ScansOnward (line : Text) (i : Nat) : Prop where
  blanks : i ≤ skipBlanks line i ∧ skipBlanks line i ≤ line.length
  number : Onward line i (number line i)
  set : ∀ j, setEnd line i = .ok j → i ≤ j ∧ j < line.length
  regexp : ∀ delim, Onward line i (regexp line i delim)
  replacement : ∀ delim, Onward line i (replacement line i delim)
  part : ∀ sep, Onward line i (transliterationPart line i sep)
  tail : Onward line i (tail line i)
  address : Onward line i (address line i)
  addresses : Onward line i (addresses line i)
  function : Onward line i (.ok (function line i))
  word : Onward line i (argument line i)
  text : Onward line i (.ok (textArgument line i))
  substitution : Onward line i (substitution line i)
  transliteration : Onward line i (transliteration line i)
  action : ∀ c, Onward line i (action line i c)

lemma scansOnward {line : Text} {i : Nat} (hi : i ≤ line.length) : ScansOnward line i where
  blanks := ⟨le_skipBlanks line i, skipBlanks_le hi⟩
  number := onward_number hi
  set := fun _ => setEnd_onward
  regexp := onward_regexp hi
  replacement := onward_replacement hi
  part := onward_transliterationPart hi
  tail := onward_tail hi
  address := onward_address hi
  addresses := onward_addresses hi
  function := onward_function hi
  word := onward_argument hi
  text := onward_textArgument hi
  substitution := onward_substitution hi
  transliteration := onward_transliteration
  action := onward_action hi

/-- No scanner turns back or leaves its line, and every command takes at least one character of a line that is not
empty. So the reading of a script ends, and in one way only: no more commands are looked for than the script has
characters, and the program is what the commands found are linked to. -/
theorem reading_goes_onward_and_ends (lines : List Text) (n : Nat) :
    (∀ (line : Text) (i : Nat), i ≤ line.length → ScansOnward line i) ∧
    (∀ (line : Text) (m m' i : Nat) (d : Option Command), line ≠ [] → command line m = .ok (i, d) m' →
      1 ≤ i ∧ i ≤ line.length) ∧
    ∃ k ≤ lines.flatten.length, (∀ k' r, Reads [] lines n k' r ↔ k' = k ∧ r = commands lines n) ∧
      program lines n = linked (commands lines n) := by
  refine ⟨fun line i => scansOnward, fun line m m' i d => command_onward, ?_⟩
  obtain ⟨k, hk, h⟩ := exists_reads [] lines n
  have hreads : Reads [] lines n k (commands lines n) := by simpa using h
  refine ⟨k, hk, fun k' r => ⟨hreads.unique, ?_⟩, program_eq_linked lines n⟩
  rintro ⟨rfl, rfl⟩
  exact hreads

-- ` 0\{` begins with a number that does not count and a regexp that is not closed, and `/[/]/s,\,,/,g}` has
-- its delimiters in a set and after a backslash
def sampleOpening : Text := [' ', '0', '\\', '{']

def sampleScript : List Text :=
  [sampleOpening, [], ['/', '[', '/', ']', '/', 's', ',', '\\', ',', ',', '/', ',', 'g', '}']]

theorem sampleScript_reading_ends :
    (3 ≤ sampleOpening.length ∧ regexp sampleOpening 3 none = .ok (3, none) ∧ ScansOnward sampleOpening 3) ∧
    (∃ n, command sampleOpening 1 = .ok (4, some ⟨1, none, none, false, .openBlock, none, none⟩) n ∧
      1 ≤ 4 ∧ 4 ≤ sampleOpening.length) ∧
    ∃ k ≤ 18, (∀ k' r, Reads [] sampleScript 1 k' r ↔ k' = k ∧ r = commands sampleScript 1) ∧
      (∃ cs n, commands sampleScript 1 = .ok cs n ∧ cs.map (·.action.letter) = ['{', 's', '}']) ∧
      program sampleScript 1 = linked (commands sampleScript 1) := by
  obtain ⟨hscans, hcommand, k, hk, hreads, hprogram⟩ := reading_goes_onward_and_ends sampleScript 1
  obtain ⟨n, hopening⟩ : ∃ n, command sampleOpening 1 =
      .ok (4, some ⟨1, none, none, false, .openBlock, none, none⟩) n := Outcome.of_result? (by decide +kernel)
  obtain ⟨cs, n', hcs, hletters⟩ : ∃ cs n', commands sampleScript 1 = .ok cs n' ∧
      cs.map (·.action.letter) = ['{', 's', '}'] := by
    have hmap : (Outcome.result? (commands sampleScript 1)).map (·.map (·.action.letter)) = some ['{', 's', '}'] := by
      decide +kernel
    obtain ⟨cs, hcs, hletters⟩ := Option.map_eq_some_iff.1 hmap
    obtain ⟨n', hcs⟩ := Outcome.of_result? hcs
    exact ⟨cs, n', hcs, hletters⟩
  refine ⟨⟨by decide, of_toOption (by decide +kernel), hscans _ _ (by decide)⟩,
    ⟨n, hopening, hcommand _ _ _ _ _ (by decide) hopening⟩, k, hk, hreads, ⟨cs, n', hcs, hletters⟩, hprogram⟩

end Script

end StreamEditor
