import StreamEditor.Proofs.Editor.Files
import StreamEditor.Proofs.Runs.Lockstep
import StreamEditor.Proofs.Script.Ready
import StreamEditor.Proofs.Text.Encoding

namespace StreamEditor

open Edit Outcome

def Action.isLocal : Action → Bool
  | .openBlock | .closeBlock | .label _ | .append _ | .branch _ | .change _ | .delete | .hold | .holdAppend
  | .insert _ | .list | .print | .printFirst | .read _ | .test _ | .transliterate _ => true
  | .substitute s => s.pattern ≠ some [] && !s.write
  | _ => false

def Address.isNamed : Address → Bool
  | .regexp source _ _ => !source.isEmpty
  | _ => false

def Command.isLocal (c : Command) : Bool := c.first.all Address.isNamed && c.second.isNone && c.action.isLocal

structure Command.Local (c : Command) : Prop where
  uses : c.uses = []
  stays : c.action ≠ .quit
  unwritten : c.action.writes = false

section

variable {mode : RegexpMode}

lemma ofScript_isSome {deferred extended ignoreCase : Bool} {source : Text} {x : Option Regexp}
    (hs : source.isEmpty = false) (h : Regexp.ofScript deferred extended ignoreCase source = .ok x) :
    x.isSome = true := by
  rw [Regexp.ofScript, hs] at h
  obtain ⟨pattern, -, h⟩ := bind_eq_ok.1 h
  split at h
  · cases h
    rfl
  · split at h
    · cases h
    · cases h
      rfl

lemma Address.uses_prepare {a : Address} (ha : a.isNamed = true) (h : (a.prepare mode).failure = none) :
    (a.prepare mode).value.uses = [] := by
  cases a with
  | line k => cases ha
  | last => cases ha
  | regexp source ignoreCase prepared =>
    cases hx : Regexp.ofScript mode.deferred mode.extended ignoreCase source with
    | error e => simp [prepare, hx] at h
    | ok x =>
      have hsome := ofScript_isSome (by simpa [isNamed] using ha) hx
      cases x with
      | none => cases hsome
      | some x => simp [prepare, hx, Attempt.done, uses]

lemma Substitution.uses_prepare {s : Substitution} (hs : s.pattern ≠ some []) (h : (s.prepare mode).failure = none) :
    (Action.substitute (s.prepare mode).value).uses = [] ∧ (s.prepare mode).value.write = s.write := by
  cases hp : s.pattern with
  | none => simp [prepare, hp] at h
  | some source =>
    cases hx : Regexp.ofScript mode.deferred mode.extended s.ignoreCase source with
    | error e => simp [prepare, hp, hx] at h
    | ok x =>
      have hne : source.isEmpty = false := by
        cases source with
        | nil => exact absurd hp hs
        | cons _ _ => rfl
      have hsome := ofScript_isSome hne hx
      cases x with
      | none => cases hsome
      | some x => simp [prepare, hp, hx, Attempt.done, Action.uses]

namespace Command

variable {c : Command}

lemma local_prepareAction (hc : c.action.isLocal = true) (h : (c.prepareAction mode).failure = none) :
    (c.prepareAction mode).value.action.uses = [] ∧ (c.prepareAction mode).value.action ≠ .quit ∧
      (c.prepareAction mode).value.action.writes = false := by
  cases ha : c.action with
  | substitute s =>
    rw [ha] at hc
    simp only [Action.isLocal, Bool.and_eq_true, Bool.not_eq_true', decide_eq_true_eq] at hc
    simp only [prepareAction, ha] at h ⊢
    obtain ⟨huses, hwrite⟩ := Substitution.uses_prepare hc.1 h
    exact ⟨huses, by simp, hwrite.trans hc.2⟩
  | transliterate y =>
    simp only [prepareAction, ha]
    exact ⟨rfl, by simp, rfl⟩
  | _ => simp_all [prepareAction, Attempt.done, Action.uses, Action.writes, Action.isLocal]

lemma local_prepare (hc : c.isLocal = true) (h : (c.prepare mode).failure = none) : (c.prepare mode).value.Local := by
  simp only [isLocal, Bool.and_eq_true, Option.isNone_iff_eq_none] at hc
  obtain ⟨⟨hfirst, hsecond⟩, haction⟩ := hc
  obtain ⟨h₁, -, h₃, he⟩ := of_prepare h
  obtain ⟨huses, hstays, hunwritten⟩ := local_prepareAction haction h₃
  rw [he]
  refine ⟨?_, hstays, hunwritten⟩
  rw [uses, huses, hsecond]
  cases ha : c.first with
  | none => rfl
  | some a =>
    rw [ha] at hfirst
    simpa using Address.uses_prepare hfirst (h₁ a ha)

end Command

end

section

variable {c : Command}

lemma Command.Local.ne_deleteFirst (hc : c.Local) : c.action ≠ .deleteFirst := by
  intro ha
  have huses := hc.uses
  simp [Command.uses, ha, Action.uses] at huses

lemma asksLast_of_local {p : Program} (hp : ∀ c ∈ p, c.Local) : p.asksLast = false := by
  have hlast (a : Address) (ha : a.uses = []) : a.isLast = false := by
    cases a with
    | last => cases ha
    | line k | regexp source ignoreCase prepared => rfl
  rw [Program.asksLast, List.any_eq_false]
  intro c hc
  have huses := (hp c hc).uses
  simp only [Command.uses, List.append_eq_nil_iff, List.flatMap_eq_nil_iff, Option.mem_toList] at huses
  obtain ⟨⟨⟨hfirst, hsecond⟩, -⟩, -⟩ := huses
  simp only [Bool.or_eq_true, Option.any_eq_true, not_or, not_exists, not_and, Bool.not_eq_true]
  exact ⟨fun a ha => hlast a (hfirst a ha), fun a ha => hlast a (hsecond a ha)⟩

end

section

variable {p : Program} {i : Nat} {m m' : Machine}

lemma Trying.store_eq {t : Try} {next : Option Nat} (h : Trying p i m t next m') (hc : t.command.Local) :
    m'.store = m.store := by
  obtain ⟨rfl, -, -, flow, m₁, ha, hr, -⟩ := h
  obtain ⟨m₀, hs, hperform⟩ := of_attempt ha
  have hwork : m₁.store = m₀.store := by
    cases ht : t.selected with
    | true =>
      rw [ht] at hperform
      exact keeps_store_perform hc.unwritten _ m₀ flow m₁ hperform
    | false =>
      rw [ht] at hperform
      cases hperform
      rfl
  rw [(kept_of_record hr).2, hwork, (kept_of_selected hs).2.2.2]

lemma Pass.store_eq (hp : ∀ c ∈ p, c.Local) {ts : List Try} (h : Pass p i m ts m') : m'.store = m.store := by
  induction h with
  | last ht => exact ht.store_eq (hp _ (List.mem_of_getElem? ht.command))
  | next ht _ ih => rw [ih, ht.store_eq (hp _ (List.mem_of_getElem? ht.command))]

def Machine.nextLine (m : Machine) (printed : Array Text) : Machine :=
  { m with editor := { m.editor with
    printed, queue := [], substituted := false, reader := m.editor.reader.readLine.2,
    pattern := m.editor.reader.readLine.1.map Text.chomp,
    lineNumber := if m.editor.reader.readLine.1.isSome then m.editor.lineNumber + 1 else m.editor.lineNumber } }

lemma endCycle_eq {c : Command} (hd : c.action ≠ .deleteFirst) (hq : c.action ≠ .quit) (selected : Bool)
    (hm : m.editor.output.isFile = false) :
    ∃ printed, endCycle c selected m = .ok m.editor.reader.readLine.1.isSome (m.nextLine printed) := by
  obtain ⟨x, hx, hshow⟩ := showCycle_eq c m
  obtain ⟨printed, hx⟩ := hx m hm
  rw [bind_ok hx] at hshow
  refine ⟨printed, ?_⟩
  rw [endCycle, bind_ok (hshow.trans rfl), nextCycle, if_neg (by simp [hq]), if_pos hd]
  change (do closeOutput; return (← editor).pattern.isSome : Edit Bool) (m.nextLine printed) = _
  rw [bind_ok (closeOutput_eq (m := m.nextLine printed) hm), ← Option.isSome_map (f := Text.chomp)]
  rfl

end

def Frame.ahead (extra : List Text) : Frame where
  shared _ := False
  reader r r' := ∃ lines, r = .plain lines ∧ r' = .plain (lines ++ extra)
  input := False.elim
  lastLine := False.elim
  trials := False.elim

lemma Command.Local.fits {c : Command} (hc : c.Local) (f : Frame) : f.Fits c := by
  intro part hpart
  rw [hc.uses] at hpart
  cases hpart

lemma Pass.command_mem {p : Program} {i : Nat} {m m' : Machine} {ts : List Try} (h : Pass p i m ts m') {t : Try}
    (ht : t ∈ ts) : t.command ∈ p := by
  induction h with
  | last htry =>
    rw [List.mem_singleton] at ht
    exact ht ▸ List.mem_of_getElem? htry.command
  | next htry _ ih =>
    rcases List.mem_cons.1 ht with rfl | ht
    · exact List.mem_of_getElem? htry.command
    · exact ih ht

lemma Laps.single {p : Program} {l : Lap} {more : Bool} (h : l.Of p more) : Laps p l.start [l] more l.finish := by
  cases more with
  | true => exact .next h (.none _)
  | false => exact .last h

lemma Laps.append {p : Program} {m m₁ m' : Machine} {laps laps' : List Lap} {more more' : Bool}
    (h : Laps p m laps more m₁) (hmore : more = true) (h' : Laps p m₁ laps' more' m') :
    Laps p m (laps ++ laps') more' m' := by
  induction h with
  | none m => exact h'
  | last _ => cases hmore
  | next hl _ ih => exact .next hl (ih hmore h')

section

variable {p : Program} {extra : List Text} {m m' n : Machine}

structure Machine.Fresh (lines : List Text) (store : Store) (m : Machine) : Prop where
  pattern : m.editor.pattern = lines.head?.map Text.chomp
  reader : m.editor.reader = .plain lines.tail
  substituted : m.editor.substituted = false
  queue : m.queue = []
  output : m.editor.output.isFile = false
  store : m.store = store

lemma Machine.fresh_opened (hq : m.queue = []) (lines : List Text) : (m.opened (.plain lines)).Fresh lines m.store :=
  ⟨rfl, rfl, rfl, hq, rfl, rfl⟩

lemma Machine.fresh_nextLine {lines : List Text} (hr : m.editor.reader = .plain lines)
    (ho : m.editor.output.isFile = false) (printed : Array Text) : (m.nextLine printed).Fresh lines m.store := by
  rw [Machine.nextLine, hr]
  exact ⟨rfl, rfl, rfl, rfl, ho, rfl⟩

lemma Machine.Fresh.agree {lines : List Text} {store : Store} (hm : m.Fresh lines store)
    (hn : n.Fresh (lines ++ extra) store) (hne : lines ≠ []) : (Frame.ahead extra).Agree m n := by
  cases lines with
  | nil => exact absurd rfl hne
  | cons line lines =>
    exact ⟨hm.pattern.trans hn.pattern.symm, hm.substituted.trans hn.substituted.symm, hm.queue.trans hn.queue.symm,
      hm.store.trans hn.store.symm, ⟨hm.output, hn.output⟩, ⟨lines, hm.reader, hn.reader⟩, nofun, nofun, nofun, nofun,
      nofun, nofun⟩

section

variable (hp : ∀ c ∈ p, c.Local)
include hp

lemma Lap.Of.ahead {l : Lap} {more : Bool} (hl : l.Of p more) (h : (Frame.ahead extra).Agree l.start n) :
    ∃ lines ts stop finish, more = lines.head?.isSome ∧ l.finish.Fresh lines n.store ∧
      (Lap.mk n ts stop finish).Of p (lines ++ extra).head?.isSome ∧ finish.Fresh (lines ++ extra) n.store ∧
      Lap.Like (Frame.ahead extra).Agree l ⟨n, ts, stop, finish⟩ := by
  obtain ⟨ts, stop, t, hpass, ht, he, hstop, hlike⟩ := hl.agree (fun c hc => (hp c hc).fits _) h
  obtain ⟨lines, hr, hr'⟩ := hstop.reader
  have hc := hp _ (hpass.command_mem (List.mem_of_getLast? ht))
  obtain ⟨ps, hps⟩ := endCycle_eq hc.ne_deleteFirst hc.stays t.selected hstop.output.1
  obtain ⟨ps', hps'⟩ := endCycle_eq hc.ne_deleteFirst hc.stays t.selected hstop.output.2
  have hfresh := Machine.fresh_nextLine hr hstop.output.1 ps
  have hfresh' := Machine.fresh_nextLine hr' hstop.output.2 ps'
  rw [hstop.store, hpass.store_eq hp] at hfresh
  rw [hpass.store_eq hp] at hfresh'
  rw [hr] at hps
  rw [hr'] at hps'
  rw [hps] at he
  injection he with hmore hfinish
  exact ⟨lines, ts, stop, stop.nextLine ps', hmore.symm, hfinish ▸ hfresh, ⟨hpass, t, ht, hps'⟩, hfresh', hlike _⟩

-- The induction is on the cycles of the first machine; after the last one the second machine has read the first of
-- the extra lines.
lemma Laps.ahead {laps : List Lap} {more : Bool} (hl : Laps p m laps more m') (hmore : more = false)
    (h : (Frame.ahead extra).Agree m n) :
    ∃ laps' n', Laps p n laps' extra.head?.isSome n' ∧
      List.Forall₂ (Lap.Like (Frame.ahead extra).Agree) laps laps' ∧ n'.Fresh extra n.store := by
  induction hl generalizing n with
  | none m => cases hmore
  | last hl =>
    obtain ⟨lines, ts, stop, finish, hread, -, hof, hfinish, hlike⟩ := hl.ahead hp h
    obtain rfl : lines = [] := by simpa using hread.symm
    exact ⟨_, _, .single hof, .cons hlike .nil, hfinish⟩
  | next hl _ ih =>
    obtain ⟨lines, ts, stop, finish, hread, hfresh, hof, hfinish, hlike⟩ := hl.ahead hp h
    have hne : lines ≠ [] := by simpa using hread.symm
    have hsome : (lines ++ extra).head?.isSome = true := by simp [hne]
    rw [hsome] at hof
    obtain ⟨laps', n', hlaps, hlikes, hn⟩ := ih hmore (hfresh.agree hfinish hne)
    exact ⟨_, n', .next hof hlaps, .cons hlike hlikes, { hn with store := hn.store.trans hfinish.store }⟩

end

lemma start_local (hp : ∀ c ∈ p, c.Local) (t : Text) :
    start p (.text t) .nowhere m = .ok (Text.records t).head?.isSome (m.opened (.plain (Text.records t))) := by
  have hs : start p (.text t) .nowhere m = _ := start_nowhere rfl
  rwa [asksLast_of_local hp] at hs

lemma RunsOver.laps_of_text (hp : ∀ c ∈ p, c.Local) {t : Text} (ht : t ≠ []) {laps : List Lap} {more : Bool}
    (h : RunsOver p (.text t) .nowhere m laps more m') : Laps p (m.opened (.plain (Text.records t))) laps more m' := by
  have hs := start_local (m := m) hp t
  have hsome : (Text.records t).head?.isSome = true := by simpa using Text.records_ne_nil ht
  rw [hsome] at hs
  cases h with
  | empty h =>
    rw [hs] at h
    cases h
  | laps h hl =>
    rw [hs] at h
    cases h
    exact hl

lemma RunsOver.laps_nil (hp : ∀ c ∈ p, c.Local) {laps : List Lap} {more : Bool}
    (h : RunsOver p (.text []) .nowhere m laps more m') : laps = [] := by
  have hs := start_local (m := m) hp []
  cases h with
  | empty _ => rfl
  | laps h _ =>
    rw [hs] at h
    cases h

lemma RunsOver.append (hp : ∀ c ∈ p, c.Local) (hq : m.queue = []) {s t : Text}
    (hs : s = [] ∨ s.getLast? = some '\n') {laps laps' : List Lap} {m₁ m₂ : Machine}
    (h : RunsOver p (.text s) .nowhere m laps false m₁) (h' : RunsOver p (.text t) .nowhere m laps' false m₂) :
    ∃ both m', RunsOver p (.text (s ++ t)) .nowhere m both false m' ∧ triedIn both = triedIn laps + triedIn laps' ∧
      both.flatMap Lap.lines = laps.flatMap Lap.lines ++ laps'.flatMap Lap.lines := by
  by_cases hs₀ : s = []
  · subst hs₀
    obtain rfl := h.laps_nil hp
    exact ⟨laps', m₂, h', (Nat.zero_add _).symm, rfl⟩
  by_cases ht₀ : t = []
  · subst ht₀
    obtain rfl := h'.laps_nil hp
    exact ⟨laps, m₁, by rwa [List.append_nil], rfl, (List.append_nil _).symm⟩
  -- the run over both texts is in step with the first run, and then with the second one
  have hfresh := Machine.fresh_opened hq (Text.records (s ++ t))
  rw [Text.records_append hs] at hfresh
  obtain ⟨ls, n, hls, hlikes, hn⟩ := (h.laps_of_text hp hs₀).ahead hp rfl
    ((Machine.fresh_opened hq (Text.records s)).agree hfresh (Text.records_ne_nil hs₀))
  have hn' : n.Fresh (Text.records t ++ []) m.store := by
    rw [List.append_nil]
    exact hn
  obtain ⟨ls', n', hls', hlikes', -⟩ := (h'.laps_of_text hp ht₀).ahead hp rfl
    ((Machine.fresh_opened hq (Text.records t)).agree hn' (Text.records_ne_nil ht₀))
  have hstart := start_local (m := m) hp (s ++ t)
  rw [Text.records_append hs] at hstart
  have hsome : (Text.records s ++ Text.records t).head?.isSome = true := by simp [Text.records_ne_nil hs₀]
  rw [hsome] at hstart
  refine ⟨ls ++ ls', n', .laps hstart (hls.append (by simpa using Text.records_ne_nil ht₀) hls'), ?_, ?_⟩
  · rw [triedIn_append, triedIn_of_likes hlikes, triedIn_of_likes hlikes']
  · rw [List.flatMap_append, flatMap_eq_of_forall₂ hlikes fun _ _ h => h.lines,
      flatMap_eq_of_forall₂ hlikes' fun _ _ h => h.lines]

end

/-- A script that treats every line by itself, run over two texts one after the other, shows what it shows when run
over each of them, if the first text ends with its last line. -/
theorem line_local_runs_append {lines : List Text} {m₀ m m₁ m₂ : Machine} {p : Program} {k : Nat}
    (hl : loadLines lines m₀ = .ok () m) (hp : Script.program (Script.pack lines) m₀.nextNumber = .ok p k)
    (hlocal : ∀ c ∈ p, c.isLocal = true) (hq : m.queue = []) {s t : Text} (hs : s = [] ∨ s.getLast? = some '\n')
    {budget budget' : Nat} (h₁ : apply budget (.text s) .nowhere m = .ok () m₁)
    (h₂ : apply budget' (.text t) .nowhere m = .ok () m₂) :
    ∃ m', apply (budget + budget') (.text (s ++ t)) .nowhere m = .ok () m' ∧ m'.shown = m₁.shown ++ m₂.shown := by
  obtain ⟨hf, hm⟩ := loaded_of_loadLines hl hp
  have hlocal' := Program.forall_prepare (fun _ => Command.local_prepare) hlocal hf
  have hclosed := Program.closed_prepare hp ⟨m₀.editor.extended, m₀.deferred⟩
  obtain ⟨laps, hruns, hle⟩ := exists_runsOver hclosed hm h₁
  obtain ⟨laps', hruns', hle'⟩ := exists_runsOver hclosed hm h₂
  obtain ⟨both, m', hboth, htried, hlines⟩ := hruns.append hlocal' hq hs hruns'
  refine ⟨m', hboth.returns hm (by omega), ?_⟩
  rw [hboth.adds, hlines, shownOf_append, ← hruns.adds, ← hruns'.adds]

def sampleLocal : Text :=
  ['/', 'b', '/', 'd', '\n', 's', '/', 'a', '/', 'x', '/', 'p', '\n', 'H', '\n', 'a', 'y']

theorem line_local_runs_append_sampleLocal :
    ∃ m m₁ m₂ m' : Machine, loadText sampleLocal ⟨{}, [], 1, false, #[], 0⟩ = .ok () m ∧ m.queue = [] ∧
      apply 8 (.text ['a', '\n', 'b', '\n']) .nowhere m = .ok () m₁ ∧
      apply 4 (.text ['c', 'a']) .nowhere m = .ok () m₂ ∧
      apply 12 (.text ['a', '\n', 'b', '\n', 'c', 'a']) .nowhere m = .ok () m' ∧
      m₁.shown = [['x'], ['x'], ['y']] ∧ m₂.shown = [['c', 'x'], ['c', 'x'], ['y']] ∧
      m'.shown = [['x'], ['x'], ['y']] ++ [['c', 'x'], ['c', 'x'], ['y']] := by
  let loaded := loadText sampleLocal ⟨{}, [], 1, false, #[], 0⟩
  let run (budget : Nat) (t : Text) := apply budget (.text t) .nowhere (final loaded)
  obtain ⟨m, hl⟩ : ∃ m, loaded = .ok () m := Outcome.of_result? (by decide +kernel)
  obtain ⟨m₁, h₁⟩ : ∃ m₁, run 8 ['a', '\n', 'b', '\n'] = .ok () m₁ := Outcome.of_result? (by decide +kernel)
  obtain ⟨m₂, h₂⟩ : ∃ m₂, run 4 ['c', 'a'] = .ok () m₂ := Outcome.of_result? (by decide +kernel)
  have hq : (final loaded).queue = [] := by decide +kernel
  have hs₁ : (final (run 8 ['a', '\n', 'b', '\n'])).shown = [['x'], ['x'], ['y']] := by decide +kernel
  have hs₂ : (final (run 4 ['c', 'a'])).shown = [['c', 'x'], ['c', 'x'], ['y']] := by decide +kernel
  rw [h₁] at hs₁
  rw [h₂] at hs₂
  simp only [run, hl, final] at h₁ h₂ hq hs₁ hs₂
  have hlocal : ∃ p, result? (Script.program (Script.pack (Text.splitLines sampleLocal)) 1) = some p ∧
      ∀ c ∈ p, c.isLocal = true := by
    have h : (result? (Script.program (Script.pack (Text.splitLines sampleLocal)) 1)).any (List.all · Command.isLocal) =
        true := by
      decide +kernel
    simpa [Option.any_eq_true] using h
  obtain ⟨p, hp, hlocal⟩ := hlocal
  obtain ⟨k, hp⟩ := Outcome.of_result? hp
  obtain ⟨m', h', hs'⟩ := line_local_runs_append hl hp hlocal hq (.inr rfl) h₁ h₂
  exact ⟨m, m₁, m₂, m', hl, hq, h₁, h₂, h', hs₁, hs₂, by rw [hs', hs₁, hs₂]⟩

end StreamEditor
