import StreamEditor.Proofs.Input.LastLine
import StreamEditor.Proofs.Output.Laps
import StreamEditor.Proofs.Range.Try
import StreamEditor.Proofs.Runs.Agree
import StreamEditor.Proofs.Script.Single

namespace StreamEditor

open Edit Outcome

def window (lines : List Text) (k : Nat) : Text := Text.join ['\n'] ((lines.drop k).take 2)

def linesByWindow (test : Text → Bool) (lines : List Text) : List Text :=
  (lines.zipIdx.filter fun l => test (window lines l.2)).map Prod.fst

abbrev showFirst (re : Text) : Text := '/' :: (re ++ ['/', 'P'])

def windowScript (re : Text) : List Text := [['$', '!', 'N'], showFirst re, ['D']]

def windowProgram (n : Nat) (re : Text) (prepared : Option Regexp) : Program :=
  [⟨n, some .last, none, true, .nextAppend, some 1, none⟩,
    ⟨n + 1, some (.regexp re false prepared), none, false, .printFirst, some 2, none⟩,
    ⟨n + 2, none, none, false, .deleteFirst, none, none⟩]

namespace Script

lemma pack_windowScript (re : Text) : pack (windowScript re) = windowScript re := by
  have hend : showFirst re = ('/' :: (re ++ ['/'])) ++ ['P'] := by simp
  have hcomment : dropComment (showFirst re) = showFirst re := rfl
  have htrim : Text.trimRight (showFirst re) = showFirst re := by
    rw [hend, Text.trimRight_concat (by decide)]
  have hlast : continues (showFirst re) = false := by
    rw [hend, continues, List.getLast?_concat]
    rfl
  have hmap : (windowScript re).map (fun line => Text.trimRight (dropComment line)) = windowScript re := by
    rw [windowScript, List.map_cons, List.map_cons, List.map_cons, hcomment, htrim]
    rfl
  rw [pack, hmap, windowScript]
  change ['$', '!', 'N'] :: joinFrom (showFirst re) [['D']] = _
  rw [joinFrom, hlast]
  rfl

section

variable {re : Text} (hread : regexpEnd '/' (re ++ ['/', 'P']) = .ok (some re.length))
include hread

lemma address_showFirst : address (showFirst re) 0 = .ok (re.length + 2, some (.regexp re false none)) := by
  have hregexp : regexp (showFirst re) 0 (some '/') = .ok (re.length + 2, some re) := by
    simp [regexp, hread, bind, Except.bind]
  have hp : (showFirst re)[re.length + 2]? = some 'P' := by simp
  have hnumber : number (showFirst re) 0 = .ok (0, none) := rfl
  simp [address, hnumber, hregexp, bind, Except.bind]

lemma command_showFirst (n : Nat) :
    command (showFirst re) n = .ok ((showFirst re).length,
      some ⟨n, some (.regexp re false none), none, false, .printFirst, none, none⟩) (n + 1) := by
  refine command_plain (i := re.length + 2) (by simp) ?_ (address_showFirst hread) (c := 'P') (by simp) rfl n
  exact skipBlanks_eq_self (c := '/') (by decide) rfl

lemma program_windowScript (n : Nat) :
    program (pack (windowScript re)) n = .ok (windowProgram n re none) (n + 3) := by
  have hfirst : lineCommands ['$', '!', 'N'] n = .ok _ (n + 1) := lineCommands_single (by decide) rfl
  have hsecond := lineCommands_single (List.cons_ne_nil _ _) (command_showFirst hread (n + 1))
  have hthird : lineCommands ['D'] (n + 2) = .ok _ (n + 3) := lineCommands_single (by decide) rfl
  have hlast : commands [['D']] (n + 2) = .ok _ (n + 3) := bind_ok hthird
  have hrest : commands [showFirst re, ['D']] (n + 1) = .ok _ (n + 3) := (bind_ok hsecond).trans (bind_ok hlast)
  have hcommands : commands (windowScript re) n = .ok _ (n + 3) := (bind_ok hfirst).trans (bind_ok hrest)
  rw [pack_windowScript, program, bind_ok hcommands]
  rfl

end

end Script

section

variable {m : Machine} {re : Text} {x : Regexp}

lemma prepare_windowProgram (mode : RegexpMode)
    (hx : Regexp.ofScript mode.deferred mode.extended false re = .ok (some x)) (n : Nat) :
    (windowProgram n re none).prepare mode = .done (windowProgram n re (some x)) := by
  have haddress : (Address.regexp re false none).prepare mode = .done (.regexp re false (some x)) := by
    rw [Address.prepare, hx]
  simp [windowProgram, Program.prepare, Command.prepare, Command.prepareFirst, Command.prepareSecond,
    Command.prepareAction, Attempt.andThen, Attempt.done, haddress,
    show Address.last.prepare mode = .done .last from rfl]

lemma load_windowScript
    (hread : Script.regexpEnd '/' (re ++ ['/', 'P']) = .ok (some re.length))
    (hx : Regexp.ofScript m.deferred m.editor.extended false re = .ok (some x)) :
    ∃ m₁, loadLines (windowScript re) m = .ok () m₁ ∧
      m₁.editor.program = some (windowProgram m.nextNumber re (some x)) ∧ m₁.queue = m.queue := by
  have hprogram := readProgram_eq (m := { m with editor := { m.editor with
    quiet := asksQuiet (windowScript re) || m.editor.quiet } }) (Script.program_windowScript hread m.nextNumber)
  have hprepare := prepare_windowProgram ⟨m.editor.extended, m.deferred⟩ hx m.nextNumber
  rw [loadLines_eq, install, bind_ok hprogram, bind_ok (show (get : Edit Machine) _ = .ok _ _ from rfl)]
  dsimp only
  rw [hprepare]
  exact ⟨_, rfl, rfl, rfl⟩

end

namespace Text

lemma notMem_chomp {u : Text} (hu : '\n' ∉ u) : '\n' ∉ chomp u ∧ '\n' ∉ chomp (u ++ ['\n']) := by
  have hsub : (chomp u).Sublist u := by
    have h := (List.dropWhile_sublist (l := u.reverse) fun c => c = '\r' || c = '\n').reverse
    rwa [List.reverse_reverse] at h
  have hsame : chomp (u ++ ['\n']) = chomp u := by simp [chomp, dropTrailing]
  rw [hsame]
  exact ⟨fun h => hu (hsub.mem h), fun h => hu (hsub.mem h)⟩

lemma exists_of_mem_records {t r : Text} (h : r ∈ records t) : ∃ u, '\n' ∉ u ∧ (r = u ∨ r = u ++ ['\n']) := by
  induction t generalizing r with
  | nil => cases h
  | cons c cs ih =>
    rw [records] at h
    split at h
    · rename_i hc
      rcases List.mem_cons.1 h with rfl | h
      · exact ⟨[], List.not_mem_nil, .inr (by rw [hc]; rfl)⟩
      · exact ih h
    · rename_i hc
      split at h
      · obtain rfl := List.mem_singleton.1 h
        exact ⟨[c], by simpa using Ne.symm hc, .inl rfl⟩
      · rename_i r' rs hrs
        rw [hrs] at ih
        rcases List.mem_cons.1 h with rfl | h
        · obtain ⟨u, hu, hr⟩ := ih List.mem_cons_self
          refine ⟨c :: u, by simp [hu, Ne.symm hc], ?_⟩
          rcases hr with rfl | rfl
          · exact .inl rfl
          · exact .inr rfl
        · exact ih (List.mem_cons_of_mem _ h)

lemma notMem_chomp_of_mem_records {t r : Text} (h : r ∈ records t) : '\n' ∉ chomp r := by
  obtain ⟨u, hu, rfl | rfl⟩ := exists_of_mem_records h
  · exact (notMem_chomp hu).1
  · exact (notMem_chomp hu).2

end Text

lemma exists_records_of_lines {source : Source} {store : Store} {lines : List Text}
    (h : source.lines store = .ok lines) : ∃ t, lines = Text.records t := by
  cases source with
  | text t =>
    cases h
    exact ⟨t, rfl⟩
  | file name =>
    rw [Source.lines] at h
    split at h
    · cases h
      exact ⟨_, rfl⟩
    · cases h

structure Sliding (space : Text) (rest : List Text) (number : Nat) (shown : List Text) (m : Machine) : Prop where
  pattern : m.editor.pattern = some space
  reader : m.editor.reader = .ofLines true rest
  lineNumber : m.editor.lineNumber = number
  shown : m.shown = shown
  queue : m.queue = []
  output : m.editor.output.isFile = false

section

variable {space line next : Text} {rest : List Text} {number : Nat} {shown : List Text} {m m₁ : Machine}
  (n : Nat) (re : Text) (x : Regexp)

lemma Sliding.of_editor (h : Sliding space rest number shown m₁) (he : m.editor = m₁.editor) :
    Sliding space rest number shown m := by
  constructor <;> simp only [Machine.shown, Machine.queue, he]
  exacts [h.pattern, h.reader, h.lineNumber, h.shown, h.queue, h.output]

lemma turn_onward {p : Program} {i j : Nat} {c : Command} {selected : Bool} (hc : p[i]? = some c)
    (ha : c.attempt i m = .ok (selected, .onward) m₁) (hj : c.next = some j) :
    ∃ m', turn p i m = .ok (some j) m' ∧ m'.editor = m₁.editor := by
  have hrecord : record c selected m₁ = .ok () _ := rfl
  refine ⟨_, ?_, (kept_of_record hrecord).1⟩
  rw [turn_eq hc ha hrecord, Command.follow, hj]
  rfl

lemma readLine_of_reader {asksLast : Bool} {source : List Text} (h : m.editor.reader = .ofLines asksLast source) :
    readLine m = .ok (source.head?.map Text.chomp) { m with editor := { m.editor with
      reader := .ofLines asksLast source.tail, substituted := false,
      lineNumber := if source.head?.isSome then m.editor.lineNumber + 1 else m.editor.lineNumber } } := by
  have hread := LineReader.readLine_ofLines asksLast source
  rw [← h] at hread
  change EStateM.Result.ok (m.editor.reader.readLine.1.map Text.chomp) { m with editor := { m.editor with
    reader := m.editor.reader.readLine.2, substituted := false,
    lineNumber := if m.editor.reader.readLine.1.isSome then m.editor.lineNumber + 1 else m.editor.lineNumber } } = _
  rw [hread]

lemma print_of_isFile (h : m.editor.output.isFile = false) (t : Text) :
    print t m = .ok () { m with editor := { m.editor with printed := m.editor.printed.push t } } := by
  rw [print_eq, Outside.print_of_isFile h]
  rfl

lemma endCycle_of_deleteFirst {c : Command} (hc : c.action = .deleteFirst) (selected : Bool) (hq : m.queue = [])
    (ho : m.editor.output.isFile = false) : endCycle c selected m = .ok m.editor.pattern.isSome m := by
  have hclear : clearQueue m = .ok () m := by
    change EStateM.Result.ok () { m with editor := { m.editor with queue := [] } } = _
    rw [← hq]
  have hshow : showCycle c m = .ok () m := by
    rw [showCycle_deleteFirst m hc, show m.editor.queue = [] from hq]
    exact hclear
  rw [endCycle, bind_ok hshow, if_neg (by simp [hc]), nextCycle, if_neg (not_not_intro hc)]
  exact bind_ok (closeOutput_eq ho)

lemma Sliding.keepLast (h : Sliding space [] number shown m) :
    ∃ m', turn (windowProgram n re (some x)) 0 m = .ok (some 1) m' ∧ Sliding space [] number shown m' := by
  let c : Command := ⟨n, some .last, none, true, .nextAppend, some 1, none⟩
  have hselected : c.selected 0 m = .ok false m := by
    change EStateM.Result.ok (m.editor.reader.isLast != true) m = _
    rw [h.reader]
    rfl
  obtain ⟨m', hturn, heditor⟩ := turn_onward (p := windowProgram n re (some x)) rfl (bind_ok hselected) rfl
  exact ⟨m', hturn, h.of_editor heditor⟩

lemma Sliding.appendNext (h : Sliding space (next :: rest) number shown m) :
    ∃ m', turn (windowProgram n re (some x)) 0 m = .ok (some 1) m' ∧
      Sliding (space ++ '\n' :: Text.chomp next) rest (number + 1) shown m' := by
  let c : Command := ⟨n, some .last, none, true, .nextAppend, some 1, none⟩
  have hselected : c.selected 0 m = .ok true m := by
    change EStateM.Result.ok (m.editor.reader.isLast != true) m = _
    rw [h.reader]
    rfl
  obtain ⟨m₁, hperform, h₁⟩ : ∃ m₁, c.perform 0 m = .ok .onward m₁ ∧
      Sliding (space ++ '\n' :: Text.chomp next) rest (number + 1) shown m₁ := by
    refine ⟨_, (bind_ok (readLine_of_reader h.reader)).trans rfl, ?_, rfl, ?_, h.shown, h.queue, h.output⟩
    · dsimp only
      rw [h.pattern]
      rfl
    · dsimp only
      rw [h.lineNumber]
      rfl
  obtain ⟨m', hturn, heditor⟩ := turn_onward (p := windowProgram n re (some x)) rfl
    ((bind_ok hselected).trans (bind_ok hperform)) rfl
  exact ⟨m', hturn, h₁.of_editor heditor⟩

lemma Sliding.showFirst {r : Regex} (hr : x.regex = .ok r) (h : Sliding space rest number shown m) :
    ∃ m', turn (windowProgram n re (some x)) 1 m = .ok (some 2) m' ∧
      Sliding space rest number
        (shown ++ if (r.find? x.ignoreCase space).isSome then [firstLine space] else []) m' := by
  let c : Command := ⟨n + 1, some (.regexp re false (some x)), none, false, .printFirst, some 2, none⟩
  have hspace : (m.recalling (some x)).space = space := by
    rw [Machine.space, h.pattern]
    rfl
  have hsearch : x.search m.space = .ok (r.find? x.ignoreCase space).isSome := by
    rw [Regexp.search, hr, Machine.space, h.pattern]
    rfl
  have hselected : c.selected 1 m = .ok ((r.find? x.ignoreCase space).isSome != false) (m.recalling (some x)) :=
    bind_ok (selects_regexp hsearch re false)
  have h₁ : Sliding space rest number shown (m.recalling (some x)) :=
    ⟨h.pattern, h.reader, h.lineNumber, h.shown, h.queue, h.output⟩
  cases hfound : (r.find? x.ignoreCase space).isSome with
  | false =>
    rw [hfound] at hselected
    obtain ⟨m', hturn, heditor⟩ := turn_onward (p := windowProgram n re (some x)) rfl (bind_ok hselected) rfl
    rw [if_neg Bool.false_ne_true, List.append_nil]
    exact ⟨m', hturn, h₁.of_editor heditor⟩
  | true =>
    rw [hfound] at hselected
    obtain ⟨m₂, hperform, h₂⟩ : ∃ m₂, c.perform 1 (m.recalling (some x)) = .ok .onward m₂ ∧
        Sliding space rest number (shown ++ [firstLine space]) m₂ := by
      refine ⟨_, bind_ok (print_of_isFile h₁.output (firstLine (m.recalling (some x)).space)),
        h₁.pattern, h₁.reader, h₁.lineNumber, ?_, h₁.queue, h₁.output⟩
      rw [hspace, ← h₁.shown]
      simp [Machine.shown]
    obtain ⟨m', hturn, heditor⟩ := turn_onward (p := windowProgram n re (some x)) rfl
      ((bind_ok hselected).trans (bind_ok hperform)) rfl
    exact ⟨m', hturn, h₂.of_editor heditor⟩

lemma turn_deleteFirst {p : Program} {i : Nat} {c : Command} {selected : Bool} (hc : p[i]? = some c)
    (hd : c.action = .deleteFirst) (ha : c.attempt i m = .ok (selected, .stop) m₁) (hq : m₁.queue = [])
    (ho : m₁.editor.output.isFile = false) :
    ∃ m', turn p i m = .ok (if m₁.editor.pattern.isSome then some 0 else none) m' ∧ m'.editor = m₁.editor := by
  obtain ⟨m₂, hrecord⟩ : ∃ m₂, record c selected m₁ = .ok () m₂ := ⟨_, rfl⟩
  have heditor : m₂.editor = m₁.editor := (kept_of_record hrecord).1
  rw [← heditor] at ho ⊢
  have hend := endCycle_of_deleteFirst hd selected (by rw [Machine.queue, heditor]; exact hq) ho
  refine ⟨m₂, ?_, rfl⟩
  rw [turn_eq hc ha hrecord, Command.follow]
  refine (bind_ok hend).trans ?_
  cases m₂.editor.pattern <;> rfl

lemma perform_deleteFirst {c : Command} (hc : c.action = .deleteFirst) (i : Nat) : c.perform i m = (do
    if m.space.contains '\n' then setPattern (some ((m.space.dropWhile (· ≠ '\n')).drop 1))
    else
      setPattern (some [])
      setPattern (← readLine)
    return Flow.stop : Edit Flow) m := by
  rw [Command.perform, hc]
  rfl

lemma Sliding.space_eq (h : Sliding space rest number shown m) : m.space = space := by
  rw [Machine.space, h.pattern]
  rfl

lemma Sliding.deleteFirst (h : Sliding (line ++ '\n' :: space) rest number shown m) (hline : '\n' ∉ line) :
    ∃ m', turn (windowProgram n re (some x)) 2 m = .ok (some 0) m' ∧ Sliding space rest number shown m' := by
  let c : Command := ⟨n + 2, none, none, false, .deleteFirst, none, none⟩
  obtain ⟨m₁, hperform, h₁⟩ : ∃ m₁, c.perform 2 m = .ok .stop m₁ ∧ Sliding space rest number shown m₁ := by
    have hdrop : (m.space.dropWhile (· ≠ '\n')).drop 1 = space := by
      rw [h.space_eq, List.dropWhile_append_of_pos (by grind)]
      simp
    rw [perform_deleteFirst rfl, if_pos (by simp [h.space_eq]), hdrop]
    exact ⟨_, rfl, rfl, h.reader, h.lineNumber, h.shown, h.queue, h.output⟩
  have hattempt : c.attempt 2 m = .ok (true, .stop) m₁ := bind_ok hperform
  obtain ⟨m', hturn, heditor⟩ := turn_deleteFirst (p := windowProgram n re (some x)) rfl rfl hattempt h₁.queue h₁.output
  rw [h₁.pattern] at hturn
  exact ⟨m', hturn, h₁.of_editor heditor⟩

lemma Sliding.deleteLast (h : Sliding space [] number shown m) (hspace : '\n' ∉ space) :
    ∃ m', turn (windowProgram n re (some x)) 2 m = .ok none m' ∧ m'.editor.pattern = none ∧ m'.shown = shown ∧
      m'.editor.lineNumber = number := by
  let c : Command := ⟨n + 2, none, none, false, .deleteFirst, none, none⟩
  have hread := readLine_of_reader (m := { m with editor := { m.editor with pattern := some [] } }) h.reader
  obtain ⟨m₁, hperform, hpattern, hnumber, hshown, hqueue, houtput⟩ : ∃ m₁, c.perform 2 m = .ok .stop m₁ ∧
      m₁.editor.pattern = none ∧ m₁.editor.lineNumber = number ∧ m₁.shown = shown ∧ m₁.queue = [] ∧
      m₁.editor.output.isFile = false := by
    rw [perform_deleteFirst rfl, if_neg (by simpa [h.space_eq] using hspace)]
    have hempty : setPattern (some []) m = .ok () { m with editor := { m.editor with pattern := some [] } } := rfl
    exact ⟨_, (bind_ok hempty).trans (bind_ok hread), rfl, h.lineNumber, h.shown, h.queue, h.output⟩
  have hattempt : c.attempt 2 m = .ok (true, .stop) m₁ := bind_ok hperform
  obtain ⟨m', hturn, heditor⟩ := turn_deleteFirst (p := windowProgram n re (some x)) rfl rfl hattempt hqueue houtput
  rw [hpattern] at hturn
  refine ⟨m', hturn, ?_⟩
  rw [Machine.shown, heditor]
  exact ⟨hpattern, hshown, hnumber⟩

lemma window_zero (lines : List Text) : window (line :: lines) 0 = line ++ (lines.head?.map ('\n' :: ·)).getD [] := by
  cases lines <;> simp [window, Text.join, List.intercalate]

lemma linesByWindow_cons (test : Text → Bool) (line : Text) (lines : List Text) :
    linesByWindow test (line :: lines) =
      (if test (window (line :: lines) 0) then [line] else []) ++ linesByWindow test lines := by
  have hshift : (lines.zipIdx 1).filter (fun l => test (window (line :: lines) l.2)) =
      (lines.zipIdx.filter fun l => test (window lines l.2)).map fun l => (l.1, l.2 + 1) := by
    rw [List.zipIdx_succ, List.filter_map]
    rfl
  rw [linesByWindow, List.zipIdx_cons, List.filter_cons, hshift]
  split <;> simp [linesByWindow, Function.comp_def]

section

variable {r : Regex} (hr : x.regex = .ok r)
include hr

-- Three commands are tried in every cycle.
lemma Sliding.cycle (h : Sliding line (next :: rest) number shown m) (hline : '\n' ∉ line) (budget : Nat) :
    ∃ m', runFrom (windowProgram n re (some x)) (budget + 3) 0 m = runFrom (windowProgram n re (some x)) budget 0 m' ∧
      Sliding (Text.chomp next) rest (number + 1) (shown ++
        if (r.find? x.ignoreCase (line ++ '\n' :: Text.chomp next)).isSome then [line] else []) m' := by
  obtain ⟨m₁, h₀, h⟩ := h.appendNext n re x
  obtain ⟨m₂, h₁, h⟩ := h.showFirst n re x hr
  obtain ⟨m₃, h₂, h⟩ := h.deleteFirst n re x hline
  have hfirst : firstLine (line ++ '\n' :: Text.chomp next) = line := by
    rw [firstLine, List.takeWhile_append_of_pos (by grind)]
    simp
  rw [hfirst] at h
  exact ⟨m₃, (bind_ok h₀).trans ((bind_ok h₁).trans (bind_ok h₂)), h⟩

lemma Sliding.lastCycle (h : Sliding line [] number shown m) (hline : '\n' ∉ line) (budget : Nat) :
    ∃ m', runFrom (windowProgram n re (some x)) (budget + 3) 0 m = .ok () m' ∧ m'.editor.pattern = none ∧
      m'.shown = shown ++ (if (r.find? x.ignoreCase line).isSome then [line] else []) ∧
      m'.editor.lineNumber = number := by
  obtain ⟨m₁, h₀, h⟩ := h.keepLast n re x
  obtain ⟨m₂, h₁, h⟩ := h.showFirst n re x hr
  obtain ⟨m₃, h₂, h⟩ := h.deleteLast n re x hline
  have hfirst : firstLine line = line := List.takeWhile_eq_self_iff.2 (by grind)
  rw [hfirst] at h
  exact ⟨m₃, (bind_ok h₀).trans ((bind_ok h₁).trans (bind_ok h₂)), h⟩

-- The induction is on the lines left to read: a cycle leaves the window at the next one.
lemma Sliding.run (h : Sliding line rest number shown m) (hline : '\n' ∉ line)
    (hrest : ∀ l ∈ rest, '\n' ∉ Text.chomp l) {budget : Nat} (hb : 3 * (rest.length + 1) ≤ budget) :
    ∃ m', runFrom (windowProgram n re (some x)) budget 0 m = .ok () m' ∧ m'.editor.pattern = none ∧
      m'.shown = shown ++ linesByWindow (fun w => (r.find? x.ignoreCase w).isSome) (line :: rest.map Text.chomp) ∧
      m'.editor.lineNumber = number + rest.length := by
  induction rest generalizing line number shown m budget with
  | nil =>
    obtain ⟨budget, rfl⟩ : ∃ b, budget = b + 3 := ⟨budget - 3, by omega⟩
    obtain ⟨m', hrun, hpattern, hshown, hnumber⟩ := h.lastCycle n re x hr hline budget
    refine ⟨m', hrun, hpattern, ?_, hnumber⟩
    rw [hshown, List.map_nil, linesByWindow_cons, window_zero]
    simp [linesByWindow]
  | cons next rest ih =>
    obtain ⟨budget, rfl⟩ : ∃ b, budget = b + 3 := ⟨budget - 3, by omega⟩
    obtain ⟨m₁, hcycle, h⟩ := h.cycle n re x hr hline budget
    have hb' : 3 * (rest.length + 1) ≤ budget := by
      rw [List.length_cons] at hb
      omega
    obtain ⟨m', hrun, hpattern, hshown, hnumber⟩ := ih h (hrest _ List.mem_cons_self)
      (fun l hl => hrest l (List.mem_cons_of_mem _ hl)) hb'
    refine ⟨m', hcycle.trans hrun, hpattern, ?_, ?_⟩
    · rw [hshown, List.map_cons, linesByWindow_cons _ line, window_zero, List.append_assoc]
      rfl
    · rw [hnumber, List.length_cons]
      omega

end

end

section

variable (n : Nat) (re : Text) (x : Regexp) {r : Regex} {m : Machine} {source : Source} {records : List Text}
  {destination : Destination} (hs : source.lines m.store = .ok records) (hd : ∀ name, destination ≠ .file name)
include hs hd

lemma start_window (hq : m.queue = []) :
    (records = [] → ∃ m', start (windowProgram n re (some x)) source destination m = .ok false m' ∧
      m'.editor.pattern = none ∧ m'.shown = [] ∧ m'.editor.lineNumber = 0) ∧
    ∀ first rest, records = first :: rest →
      ∃ m', start (windowProgram n re (some x)) source destination m = .ok true m' ∧
        Sliding (Text.chomp first) rest 1 [] m' := by
  constructor
  · rintro rfl
    rw [start_eq hs]
    cases destination with
    | nowhere | stream => exact ⟨_, rfl, rfl, rfl, rfl⟩
    | file name => exact absurd rfl (hd name)
  · rintro first rest rfl
    rw [start_eq hs]
    cases destination with
    | nowhere | stream => exact ⟨_, rfl, rfl, rfl, rfl, rfl, hq, rfl⟩
    | file name => exact absurd rfl (hd name)

lemma apply_window (hr : x.regex = .ok r) (hm : m.editor.program = some (windowProgram n re (some x)))
    (hq : m.queue = []) {budget : Nat} (hb : 3 * records.length ≤ budget) :
    ∃ m', apply budget source destination m = .ok () m' ∧ m'.editor.pattern = none ∧
      m'.shown = linesByWindow (fun w => (r.find? x.ignoreCase w).isSome) (records.map Text.chomp) ∧
      m'.editor.lineNumber = records.length := by
  obtain ⟨t, ht⟩ := exists_records_of_lines hs
  have hlines : ∀ l ∈ records, '\n' ∉ Text.chomp l := fun l hl => Text.notMem_chomp_of_mem_records (ht ▸ hl)
  obtain ⟨hempty, hstart⟩ := start_window n re x hs hd hq
  rw [apply_eq hm]
  cases records with
  | nil =>
    obtain ⟨m₁, hstart, h₁⟩ := hempty rfl
    exact ⟨m₁, bind_ok hstart, h₁⟩
  | cons first rest =>
    obtain ⟨m₁, hstart, h⟩ := hstart first rest rfl
    obtain ⟨m', hrun, hpattern, hshown, hnumber⟩ := h.run n re x hr (hlines _ List.mem_cons_self)
      (fun l hl => hlines l (List.mem_cons_of_mem _ hl)) hb
    exact ⟨m', (bind_ok hstart).trans hrun, hpattern, hshown, by rw [hnumber, List.length_cons, Nat.add_comm]⟩

end

/-- For a regexp that ends at the slash written after it and can be compiled, the script shows the lines in whose windows
it finds something, in their order. The run comes to an end, with every line read once. -/
theorem window_script_shows_lines {re : Text} {x : Regexp} {r : Regex} {m : Machine}
    (hread : Script.regexpEnd '/' (re ++ ['/', 'P']) = .ok (some re.length))
    (hx : Regexp.ofScript m.deferred m.editor.extended false re = .ok (some x)) (hr : x.regex = .ok r)
    (hq : m.queue = []) :
    ∃ m₁, loadLines (windowScript re) m = .ok () m₁ ∧
      ∀ source records destination budget, source.lines m₁.store = .ok records → (∀ name, destination ≠ .file name) →
        3 * records.length ≤ budget → ∃ m₂, apply budget source destination m₁ = .ok () m₂ ∧
          m₂.shown = linesByWindow (fun w => (r.find? x.ignoreCase w).isSome) (records.map Text.chomp) ∧
          (LineReader.ofLines true records).HandsOut records m₂.editor.reader ∧
          m₂.editor.lineNumber = records.length ∧ m₂.editor.pattern = none := by
  obtain ⟨m₁, hload, hprogram, hqueue⟩ := load_windowScript hread hx
  refine ⟨m₁, hload, fun source records destination budget hs hd hb => ?_⟩
  obtain ⟨m₂, hrun, hpattern, hshown, hnumber⟩ := apply_window _ re x hs hd hr hprogram (hqueue.trans hq) hb
  have hcounts := final_apply (P := Machine.Counts (.ofLines true records)) (fun _ _ _ h hc => hc.move h) hprogram hs
    ⟨[], .nothing, rfl⟩ destination budget
  rw [hrun] at hcounts
  obtain ⟨read, hhands, hlength⟩ : m₂.Counts _ := hcounts
  obtain ⟨rest, rfl, -⟩ := hhands.exists_rest
  obtain rfl : rest = [] := by
    rw [hnumber, List.length_append] at hlength
    exact List.eq_nil_of_length_eq_zero (by omega)
  rw [List.append_nil] at *
  exact ⟨m₂, hrun, hshown, hhands, hnumber, hpattern⟩

theorem window_script_shows_lines_adjacent :
    Script.regexpEnd '/' (['a', '\\', 'n', 'b'] ++ ['/', 'P']) = .ok (some 4) ∧
      ∃ m₁ m₂, loadLines (windowScript ['a', '\\', 'n', 'b']) sampleMachine = .ok () m₁ ∧
        apply 12 (.text ['a', 'c', '\n', 'c', 'a', '\n', 'b', '\n', 'a']) .stream m₁ = .ok () m₂ ∧
        m₂.shown = [['c', 'a']] ∧ m₂.editor.lineNumber = 4 := by
  have hread : Script.regexpEnd '/' (['a', '\\', 'n', 'b'] ++ ['/', 'P']) = .ok (some 4) := by cbv
  obtain ⟨m₁, hload, happly⟩ := window_script_shows_lines (m := sampleMachine) hread
    (x := ⟨['a', '\\', 'n', 'b'], false, some (.seq (.char 'a') (.seq (.char '\n') (.char 'b')))⟩)
    (by decide +kernel) rfl rfl
  obtain ⟨m₂, hrun, hshown, -, hnumber, -⟩ :=
    happly (.text ['a', 'c', '\n', 'c', 'a', '\n', 'b', '\n', 'a']) _ .stream 12 rfl (by simp) (by decide)
  exact ⟨hread, m₁, m₂, hload, hrun, hshown.trans (by decide +kernel), hnumber⟩

end StreamEditor
