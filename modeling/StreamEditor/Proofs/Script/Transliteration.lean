import StreamEditor.Proofs.Output.Shown
import StreamEditor.Proofs.Script.Ready
import StreamEditor.Proofs.Script.Separators

namespace StreamEditor

open Edit Outcome

def escapeChar (sep c : Char) : Text :=
  if c = '\\' ∨ c = sep then ['\\', c] else if c = '\n' then ['\\', 'n'] else [c]

def escapeArgument (sep : Char) (t : Text) : Text := t.flatMap (escapeChar sep)

def writtenArguments (sep : Char) (a b : Text) : Text :=
  sep :: (escapeArgument sep a ++ sep :: (escapeArgument sep b ++ [sep]))

section

variable {sep : Char} (hsep : sep ∉ ['\\', '\n', 'n', 't'])
include hsep

lemma escapeChar_eq (c : Char) :
    escapeChar sep c = [c] ∧ c ≠ '\\' ∧ c ≠ sep ∨
      ∃ d, escapeChar sep c = ['\\', d] ∧ (if d = 'n' then '\n' else if d = 't' then '\t' else d) = c := by
  by_cases hc : c = '\\' ∨ c = sep
  · refine .inr ⟨c, if_pos hc, ?_⟩
    rcases hc with rfl | rfl
    · rfl
    · simp only [List.mem_cons, not_or] at hsep
      rw [if_neg hsep.2.2.1, if_neg hsep.2.2.2.1]
  · by_cases hn : c = '\n'
    · exact .inr ⟨'n', by rw [escapeChar, if_neg hc, if_pos hn], hn.symm⟩
    · exact .inl ⟨by rw [escapeChar, if_neg hc, if_neg hn], not_or.1 hc⟩

lemma delimiter?_escapeArgument (t rest : Text) :
    Script.delimiter? sep (escapeArgument sep t ++ sep :: rest) = some (escapeArgument sep t).length := by
  have hbackslash : '\\' ≠ sep := by
    rintro rfl
    simp at hsep
  induction t with
  | nil => rw [escapeArgument, List.flatMap_nil, List.nil_append, Script.delimiter?_cons, if_pos rfl, List.length_nil]
  | cons c t ih =>
    rw [escapeArgument, List.flatMap_cons, ← escapeArgument]
    rcases escapeChar_eq hsep c with ⟨heq, hc, hne⟩ | ⟨d, heq, -⟩
    · rw [heq, List.singleton_append, List.cons_append, Script.delimiter?_cons, if_neg hne, if_neg hc, ih]
      rfl
    · rw [heq, List.append_assoc, List.cons_append, Script.delimiter?_cons, if_neg hbackslash, if_pos rfl,
        List.singleton_append, List.drop_one, List.tail_cons, ih]
      rfl

lemma unescape_escapeArgument (t : Text) : Dialect.unescape (escapeArgument sep t) = .ok t := by
  induction t with
  | nil => rfl
  | cons c t ih =>
    rw [escapeArgument, List.flatMap_cons, ← escapeArgument]
    rcases escapeChar_eq hsep c with ⟨heq, hc, -⟩ | ⟨d, heq, hd⟩
    · rw [heq, List.singleton_append, Dialect.unescape]
      · rw [ih]
        rfl
      all_goals simp [hc]
    · rw [heq, List.cons_append, List.singleton_append, Dialect.unescape, ih, hd]
      rfl

namespace Script

lemma transliterationPart_escapeArgument {text : Text} {i : Nat} {t rest : Text}
    (h : text.drop i = escapeArgument sep t ++ sep :: rest) :
    transliterationPart text i sep = .ok (i + (escapeArgument sep t).length + 1, escapeArgument sep t) ∧
      text.drop (i + (escapeArgument sep t).length + 1) = rest := by
  constructor
  · rw [transliterationPart, h, delimiter?_escapeArgument hsep]
    simp only [List.take_left]
  · rw [Nat.add_assoc, ← List.drop_drop, h, List.drop_length_add_append, List.drop_one, List.tail_cons]

lemma transliteration_writtenArguments (a b l : Text) :
    transliteration (l ++ writtenArguments sep a b) l.length = .ok ((l ++ writtenArguments sep a b).length,
      ⟨escapeArgument sep a, escapeArgument sep b, none⟩) := by
  have hfirst : (l ++ writtenArguments sep a b)[l.length]? = some sep := by simp [writtenArguments]
  have hdrop : (l ++ writtenArguments sep a b).drop (l.length + 1) =
      escapeArgument sep a ++ sep :: (escapeArgument sep b ++ [sep]) := by simp [writtenArguments]
  obtain ⟨hsource, hdrop⟩ := transliterationPart_escapeArgument hsep hdrop
  obtain ⟨hdest, -⟩ := transliterationPart_escapeArgument hsep hdrop
  have hend : l.length + 1 + (escapeArgument sep a).length + 1 + (escapeArgument sep b).length + 1 =
      (l ++ writtenArguments sep a b).length := by
    simp only [writtenArguments, List.length_append, List.length_cons, List.length_nil]
    omega
  have htail (t : Text) : tail t t.length = .ok (t.length, []) := by
    rw [tail, if_neg (Nat.lt_irrefl _), List.drop_length]
    rfl
  rw [hend] at hdest
  rw [transliteration, if_neg (by simp [writtenArguments]), hfirst]
  simp only [hsource, hdest, htail, bind, Except.bind]
  rfl

end Script

end

/-- What stands in a second text at the last position of a character in a first; other characters stay. -/
inductive Transliterates (a b : Text) (c : Char) : Char → Prop
  | last {j : Nat} {d : Char} : a[j]? = some c → b[j]? = some d → c ∉ a.drop (j + 1) → Transliterates a b c d
  | same : c ∉ a → Transliterates a b c c

lemma Transliterates.unique {a b : Text} {c d d' : Char} (h : Transliterates a b c d) (h' : Transliterates a b c d') :
    d = d' := by
  have hlast {j k : Nat} (hj : c ∉ a.drop (j + 1)) (hk : a[k]? = some c) : k ≤ j := by
    by_contra hlt
    apply hj
    apply List.mem_of_getElem? (i := k - (j + 1))
    rw [List.getElem?_drop, Nat.add_sub_cancel' (by omega), hk]
  cases h with
  | last ha hb hj =>
    cases h' with
    | last ha' hb' hj' =>
      obtain rfl := Nat.le_antisymm (hlast hj' ha) (hlast hj ha')
      exact Option.some.inj (hb.symm.trans hb')
    | same hc => exact absurd (List.mem_of_getElem? ha) hc
  | same hc =>
    cases h' with
    | last ha => exact absurd (List.mem_of_getElem? ha) hc
    | same => rfl

lemma transliterates_lookup {a b : Text} (h : a.length = b.length) (c : Char) :
    Transliterates a b c (((a.zip b).reverse.lookup c).getD c) := by
  cases hlookup : (a.zip b).reverse.lookup c with
  | none =>
    rw [List.lookup_eq_none_iff] at hlookup
    refine .same fun hc => ?_
    rw [← List.map_fst_zip h.le, List.mem_map] at hc
    obtain ⟨p, hp, rfl⟩ := hc
    simpa using hlookup p (List.mem_reverse.2 hp)
  | some d =>
    obtain ⟨later, earlier, heq, hlater⟩ := List.lookup_eq_some_iff.1 hlookup
    have hzip : a.zip b = earlier.reverse ++ (c, d) :: later.reverse := by
      rw [← List.reverse_reverse (a.zip b), heq]
      simp
    have ha : a = earlier.reverse.map Prod.fst ++ c :: later.reverse.map Prod.fst := by
      rw [← List.map_fst_zip h.le, hzip, List.map_append, List.map_cons]
    have hb : b = earlier.reverse.map Prod.snd ++ d :: later.reverse.map Prod.snd := by
      rw [← List.map_snd_zip h.ge, hzip, List.map_append, List.map_cons]
    have hposition : earlier.length = (earlier.reverse.map Prod.fst).length := by simp
    refine .last (j := earlier.length) ?_ ?_ ?_
    · simp [ha]
    · simp [hb]
    · rw [ha, hposition, List.drop_length_add_append, List.drop_one, List.tail_cons]
      intro hc
      obtain ⟨p, hp, rfl⟩ := List.mem_map.1 hc
      simpa using hlater p (List.mem_reverse.1 hp)

lemma transliterates_iff {a b : Text} (h : a.length = b.length) {c d : Char} :
    ((a.zip b).reverse.lookup c).getD c = d ↔ Transliterates a b c d := by
  constructor
  · rintro rfl
    exact transliterates_lookup h c
  · exact (transliterates_lookup h c).unique

lemma Transliteration.prepare_eq {y : Transliteration} {a b : Text} (ha : Dialect.unescape y.source = .ok a)
    (hb : Dialect.unescape y.dest = .ok b) :
    y.prepare = if a.length = b.length then .done ⟨a, b, some (a.zip b).reverse⟩
      else ⟨⟨a, b, none⟩, some (.fault .transliterationLengths)⟩ := by
  rw [prepare, ha, hb]
  dsimp only
  by_cases h : a.length = b.length
  · rw [CharTable.ofTexts?, if_pos h, if_pos h]
  · rw [CharTable.ofTexts?, if_neg h, if_neg h]

namespace Command

variable {mode : RegexpMode} {c : Command}

lemma prepare_transliterate {y : Transliteration} (hc : c.action = .transliterate y)
    (hfirst : ∀ x ∈ c.first, (x.prepare mode).failure = none)
    (hsecond : ∀ x ∈ c.second, (x.prepare mode).failure = none) :
    (c.prepare mode).failure = y.prepare.failure ∧ (c.prepare mode).value.action = .transliterate y.prepare.value := by
  obtain ⟨first, second, hprepare⟩ := exists_prepare hfirst hsecond
  rw [hprepare, prepareAction, hc]
  exact ⟨rfl, rfl⟩

lemma perform_transliterate {y : Transliteration} {table : CharTable} (hc : c.action = .transliterate y)
    (hy : y.table = some table) (i : Nat) (m : Machine) :
    c.perform i m = .ok .onward { m with editor := { m.editor with pattern := some (table.apply m.space) } } := by
  have hexecute : y.execute m = .ok () { m with editor := { m.editor with pattern := some (table.apply m.space) } } := by
    rw [Transliteration.execute, bind_ok (show Edit.pattern m = .ok m.space m from rfl), hy]
    rfl
  rw [perform, hc]
  exact bind_ok hexecute

end Command

/-- Arguments that are written with escapes are read as they were meant. The command that has them can be prepared if
and only if they are of one length, and then puts for every character of pattern space what stands at the last position
of the character. -/
theorem transliteration_maps_to_last (sep : Char) (a b l : Text) (hsep : sep ∉ ['\\', '\n', 'n', 't']) :
    ∃ y, Script.transliteration (l ++ writtenArguments sep a b) l.length =
        .ok ((l ++ writtenArguments sep a b).length, y) ∧
      Dialect.unescape y.source = .ok a ∧ Dialect.unescape y.dest = .ok b ∧
      ∀ (mode : RegexpMode) (c : Command), c.action = .transliterate y →
        (∀ x ∈ c.first, (x.prepare mode).failure = none) → (∀ x ∈ c.second, (x.prepare mode).failure = none) →
        ((∃ f, (c.prepare mode).failure = some (.fault f)) ↔ a.length ≠ b.length) ∧
        (a.length = b.length → (c.prepare mode).failure = none ∧
          ∃ f : Char → Char, (∀ x y, f x = y ↔ Transliterates a b x y) ∧ ∀ (i : Nat) (m : Machine),
            (c.prepare mode).value.perform i m =
              .ok .onward { m with editor := { m.editor with pattern := some (m.space.map f) } }) := by
  have ha := unescape_escapeArgument hsep a
  have hb := unescape_escapeArgument hsep b
  refine ⟨_, Script.transliteration_writtenArguments hsep a b l, ha, hb, fun mode c hc hfirst hsecond => ?_⟩
  obtain ⟨hfailure, haction⟩ := Command.prepare_transliterate hc hfirst hsecond
  rw [Transliteration.prepare_eq ha hb] at hfailure haction
  by_cases hlength : a.length = b.length
  · rw [if_pos hlength] at hfailure haction
    refine ⟨?_, fun _ => ⟨hfailure, _, fun x y => transliterates_iff hlength, ?_⟩⟩
    · simp [hfailure, hlength, Attempt.done]
    · exact Command.perform_transliterate haction rfl
  · rw [if_neg hlength] at hfailure
    simp [hfailure, hlength]

theorem transliteration_maps_to_last_slash :
    ∃ y, Script.transliteration ['y', '/', 'a', '\\', '/', '\\', '\\', 'a', '/', '1', '2', '3', '4', '/'] 1 =
        .ok (14, y) ∧
      ∃ f : Char → Char, f 'a' = '4' ∧ f '/' = '2' ∧ f '\\' = '3' ∧ f 'b' = 'b' ∧ ∀ (i : Nat) (m : Machine),
        (Command.prepare ⟨false, false⟩ ⟨1, none, none, false, .transliterate y, none, none⟩).value.perform i m =
          .ok .onward { m with editor := { m.editor with pattern := some (m.space.map f) } } := by
  obtain ⟨y, hread, -, -, hprepare⟩ :=
    transliteration_maps_to_last '/' ['a', '/', '\\', 'a'] ['1', '2', '3', '4'] ['y'] (by decide)
  obtain ⟨-, hperform⟩ := hprepare ⟨false, false⟩ ⟨1, none, none, false, .transliterate y, none, none⟩ rfl (by simp)
    (by simp)
  obtain ⟨-, f, hf, hperform⟩ := hperform rfl
  refine ⟨y, hread, f, ?_, ?_, ?_, ?_, hperform⟩
  · exact (hf _ _).2 (.last (j := 3) rfl rfl (by decide))
  · exact (hf _ _).2 (.last (j := 1) rfl rfl (by decide))
  · exact (hf _ _).2 (.last (j := 2) rfl rfl (by decide))
  · exact (hf _ _).2 (.same (by decide))

end StreamEditor
