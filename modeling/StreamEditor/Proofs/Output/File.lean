import Mathlib.Data.List.TakeWhile
import StreamEditor.Proofs.Runs.Autoprint
import StreamEditor.Proofs.Store

/-! Output that goes into a file. The file is closed after the first cycle, so it gets what the first cycle shows, and
a run that shows anything later on fails there. If the first cycle quits the run, the file is not closed and gets nothing. -/

namespace StreamEditor

open Edit Outcome

def latin1Lines (lines : List Text) : Bytes := lines.flatMap fun line => Text.toLatin1 (line ++ ['\n'])

def IsLatin1 (line : Text) : Prop := ∀ c ∈ line, Text.isLatin1 c = true

instance (line : Text) : Decidable (IsLatin1 line) := List.decidableBAll (Text.isLatin1 · = true) line

lemma unencodable?_eq_none {line : Text} (h : IsLatin1 line) : unencodable? line = none := by
  rw [unencodable?, List.takeWhile_eq_self_iff.2 h, List.drop_length]

structure Filing (name : Text) (o o' : Outside) : Prop where
  quiet : o'.quiet = o.quiet
  printed : o'.printed = o.printed
  silent : o.output = .silent
  written : o'.output = .file name false (latin1Lines o.printed.toList)
  empty : o'.store.lookup name = some []
  store : o.store.SameBut name o'.store

section

variable {name t : Text} {o o' : Outside}

lemma Filing.print (h : Filing name o o') :
    Showing (Filing name) (fun _ o => ∃ line ∈ o.printed.toList, ¬IsLatin1 line) (o.print t) (o'.print t) := by
  rw [o.print_of_isFile (h.silent ▸ rfl), Outside.print, h.written]
  dsimp only
  have hprinted : o'.printed.push t = o.printed.push t := congrArg (Array.push · t) h.printed
  cases hu : unencodable? t with
  | none => exact .same none { h with printed := hprinted, written := by simp [latin1Lines] }
  | some _ =>
    refine .stopped hprinted ⟨t, by simp, fun ht => ?_⟩
    rw [unencodable?_eq_none ht] at hu
    cases hu

end

def Coupling.filing (name : Text) : Coupling where
  toFrame := Frame.all
  outside := Filing name
  stops _ o := ∃ line ∈ o.printed.toList, ¬IsLatin1 line
  file path := Store.locate path ≠ .ok name
  print _ _ h _ := h.print
  autoprint _ _ h _ := h.print.autoprint h h.quiet.symm
  read _ _ h _ hpath := h.store.fileLines_eq hpath
  write _ _ h _ hpath _ _ _ hs hs' :=
    { h with store := h.store.append hpath hs hs', empty := (Store.lookup_append hs' hpath).trans h.empty }

structure Filed (name : Text) (first : List Text) (o o' : Outside) : Prop where
  quiet : o'.quiet = o.quiet
  printed : o'.printed = o.printed
  shown : o.printed.toList = first
  silent : o.output = .silent
  closed : ∃ written, o'.output = .file name true written
  held : o'.store.lookup name = some (latin1Lines first)
  store : o.store.SameBut name o'.store

def Refused (name : Text) (first : List Text) (e : Failure) (o : Outside) : Prop :=
  e = .outputClosed ∧ (∃ line, o.printed.toList = first ++ [line]) ∧ o.store.lookup name = some (latin1Lines first)

lemma Filed.print {name t : Text} {first : List Text} {o o' : Outside} (h : Filed name first o o') :
    Showing (Filed name first) (Refused name first) (o.print t) (o'.print t) := by
  obtain ⟨written, hwritten⟩ := h.closed
  have hprinted : o'.printed.push t = o.printed.push t := congrArg (Array.push · t) h.printed
  rw [o.print_of_isFile (h.silent ▸ rfl), Outside.print, hwritten]
  refine .stopped hprinted ⟨rfl, ⟨t, ?_⟩, h.held⟩
  rw [hprinted, Array.toList_push, h.shown]

def Coupling.filed (name : Text) (first : List Text) : Coupling where
  toFrame := Frame.all
  outside := Filed name first
  stops := Refused name first
  file path := Store.locate path ≠ .ok name
  print _ _ h _ := h.print
  autoprint _ _ h _ := h.print.autoprint h h.quiet.symm
  read _ _ h _ hpath := h.store.fileLines_eq hpath
  write _ _ h _ hpath _ _ _ hs hs' :=
    { h with store := h.store.append hpath hs hs', held := (Store.lookup_append hs' hpath).trans h.held }

section

variable {name : Text} {first : List Text} {o o' : Outside}

lemma Filing.close (h : Filing name o o') : o.close = o ∧ Filed name o.printed.toList o o'.close := by
  refine ⟨o.close_of_isFile (h.silent ▸ rfl), ?_⟩
  rw [Outside.close, h.written]
  exact ⟨h.quiet, h.printed, rfl, h.silent, ⟨_, rfl⟩, Store.lookup_put_self _ _ _, h.store.put _⟩

lemma Filed.close (h : Filed name first o o') : o.close = o ∧ Filed name first o o'.close := by
  obtain ⟨written, hwritten⟩ := h.closed
  refine ⟨o.close_of_isFile (h.silent ▸ rfl), ?_⟩
  rw [Outside.close, hwritten]
  exact h

end

/-- What a machine that has written into a file comes to, next to one that has not: it has shown the same lines, the
file holds them, and no other file differs. -/
structure Kept (name : Text) (m n : Machine) : Prop where
  shown : n.shown = m.shown
  held : n.store.lookup name = some (latin1Lines m.shown)
  store : m.store.SameBut name n.store

/-- The same lines are shown, but the file is still open and none of them is in it yet. -/
structure LeftOpen (name : Text) (m n : Machine) : Prop where
  shown : n.shown = m.shown
  output : n.editor.output = .file name false (latin1Lines m.shown)
  held : n.store.lookup name = some []
  store : m.store.SameBut name n.store

def Lap.quits (l : Lap) : Bool := l.tries.getLast?.any fun t => t.command.action = .quit && t.selected

lemma Lap.Like.quits_eq {R : Machine → Machine → Prop} {l l' : Lap} (h : Lap.Like R l l') {t : Try}
    (ht : l'.tries.getLast? = some t) : l.quits = (t.command.action = .quit && t.selected) := by
  obtain ⟨t', ht', hlike⟩ := getLast?_of_forall₂ h.tries.flip ht
  rw [Lap.quits, ht', Option.any_some, hlike.command, hlike.selected]

section

variable {p : Program} {name : Text} {m n : Machine}

lemma Filed.kept {first : List Text} (h : Filed name first m.outside n.outside) : Kept name m n :=
  ⟨congrArg Array.toList h.printed, h.held.trans (congrArg (some <| latin1Lines ·) h.shown.symm), h.store⟩

lemma Filing.leftOpen (h : Filing name m.outside n.outside) : LeftOpen name m n :=
  ⟨congrArg Array.toList h.printed, h.written, h.empty, h.store⟩

lemma clear_filing {shown : List Text} (h : ∀ line ∈ shown, IsLatin1 line) : (Coupling.filing name).Clear shown := by
  rintro e o ho ⟨line, hline, hno⟩
  exact hno (h line (ho.subset hline))

lemma endCycle_filing {c : Command} {selected more : Bool} {m' : Machine}
    (h : (Coupling.filing name).Couples m n) (he : endCycle c selected m = .ok more m')
    (hclear : (Coupling.filing name).Clear m'.shown) :
    ∃ n', endCycle c selected n = .ok more n' ∧
      if c.action = .quit && selected then (Coupling.filing name).Couples m' n' ∧ more = false
      else (Coupling.filed name m'.shown).Couples m' n' := by
  obtain ⟨_, m₁, hshow, hend⟩ := Outcome.bind_eq_ok.1 he
  have hshown : m'.shown = m₁.shown := by
    split at hend
    · cases hend
      rfl
    · simpa using (adds_nextCycle c more m' hend).1
  obtain ⟨n₁, hshow', h₁⟩ := (h.showCycle c).of_ok hshow (hshown ▸ hclear)
  rw [endCycle, bind_ok hshow']
  by_cases hquit : (c.action = .quit && selected) = true
  · rw [if_pos hquit] at hend ⊢
    cases hend
    refine ⟨n₁, rfl, ?_⟩
    rw [if_pos hquit]
    exact ⟨h₁, rfl⟩
  · rw [if_neg hquit] at hend ⊢
    have hclose : (Coupling.filed name m'.shown).outside m₁.outside.close n₁.outside.close := by
      obtain ⟨hclose, hfiled⟩ := Filing.close h₁.outside
      rw [hshown, hclose]
      exact hfiled
    have hframe : (Coupling.filed name m'.shown).toFrame = (Coupling.filing name).toFrame := rfl
    obtain ⟨n', hnext, hn'⟩ := (h₁.nextCycle trivial hframe hclose c).of_ok hend
    refine ⟨n', hnext, ?_⟩
    rwa [if_neg hquit]

lemma Lap.Of.filing {l : Lap} {more : Bool} (hl : l.Of p more) (hp : ∀ c ∈ p, (Coupling.filing name).Fits c)
    (hlatin : ∀ line ∈ l.finish.shown, IsLatin1 line) (h : (Coupling.filing name).Couples l.start n) :
    ∃ ts stop finish, (Lap.mk n ts stop finish).Of p more ∧ ts.length = l.tries.length ∧
      if l.quits then (Coupling.filing name).Couples l.finish finish ∧ more = false
      else (Coupling.filed name l.finish.shown).Couples l.finish finish := by
  have hclear : (Coupling.filing name).Clear l.finish.shown := clear_filing hlatin
  have hgrows : l.stop.shown <+: l.finish.shown := by
    obtain ⟨-, t, -, he⟩ := hl
    have hg := (within_endCycle t.command t.selected).grows l.stop
    rwa [he] at hg
  obtain ⟨ts, stop, t, hpass, ht, he, hstop, hlike⟩ := hl.couples hp (hclear.mono hgrows) h
  obtain ⟨finish, he', hfinish⟩ := endCycle_filing hstop he hclear
  refine ⟨ts, stop, finish, ⟨hpass, t, ht, he'⟩, (hlike stop).tries.length_eq.symm, ?_⟩
  rw [(hlike stop).quits_eq ht]
  exact hfinish

end

/-- How a run that writes into a file ends, if it shows some lines in its first cycle and others later on when it does
not. If the first cycle quits, it returns and leaves the file open. Otherwise it returns if there are no later lines, and
fails at the first one of them if there are any. -/
def EndsFiled (name : Text) (quits : Bool) (first later : List Text) (m' : Machine)
    (r : EStateM.Result Failure Machine Unit) : Prop :=
  if quits then ∃ n, r = .ok () n ∧ LeftOpen name m' n
  else
    match later with
    | [] => ∃ n, r = .ok () n ∧ Kept name m' n
    | line :: _ => ∃ n, r = .error .outputClosed n ∧ n.shown = first ++ [line] ∧
        n.store.lookup name = some (latin1Lines first)

section

variable {p : Program} {name path : Text} {m m' n : Machine}

lemma alike_start_file (hname : Store.locate path = .ok name) {source : Source} {lines : List Text}
    (hs : source.lines m.store = .ok lines) :
    Alike (Coupling.filing name).Couples (start p source .nowhere m) (start p source (.file path) m) := by
  have hfile : start p source (.file path) m =
      .ok (LineReader.ofLines p.asksLast lines).readLine.1.isSome ((m.opened (.ofLines p.asksLast lines)).facing
        ⟨m.editor.quiet, #[], .file name false [], m.store.put name []⟩) := by
    rw [start_eq hs, ← Option.isSome_map (f := Text.chomp)]
    change ((lift (Store.locate path) >>= _) >>= _ : Edit Bool) _ = _
    rw [hname]
    rfl
  have hout : Filing name ⟨m.editor.quiet, #[], .silent, m.store⟩
      ⟨m.editor.quiet, #[], .file name false [], m.store.put name []⟩ :=
    ⟨rfl, rfl, rfl, rfl, Store.lookup_put_self _ _ _, fun other h => (Store.lookup_put_of_ne h _ _).symm⟩
  rw [start_nowhere hs, hfile]
  exact .ok _ ⟨rfl, rfl, rfl, hout, rfl, fun _ => rfl, fun _ => rfl, fun _ => rfl, fun _ => rfl, fun _ => rfl,
    fun _ => rfl⟩

lemma endsFiled_runFrom (hp : ∀ c ∈ p, ∀ file ∈ c.action.files, Store.locate file ≠ .ok name)
    (h : (Coupling.filed name m.shown).Couples m n) {budget : Nat} (hrun : runFrom p budget 0 m = .ok () m')
    {later : List Text} (hlater : m'.shown = m.shown ++ later) :
    EndsFiled name false m.shown later m' (runFrom p budget 0 n) := by
  have hclose : (Coupling.filed name m.shown).Closes := by
    intro o o' h
    obtain ⟨hclose, hfiled⟩ := Filed.close h
    rw [hclose]
    exact hfiled
  have htracks := h.runFrom trivial hclose (fun c hc => ⟨Frame.fits_all c, hp c hc⟩) (Coupling.matches_refl _ p) budget 0
  rw [hrun] at htracks
  generalize runFrom p budget 0 n = r at htracks
  cases htracks with
  | ok _ h' =>
    have hsame : m'.shown = m.shown := h'.outside.shown
    obtain rfl : later = [] := by simpa [hsame] using hlater
    exact ⟨_, rfl, Filed.kept h'.outside⟩
  | stopped hshown hrefused =>
    obtain ⟨rfl, ⟨line, hline⟩, hheld⟩ := hrefused
    change _ <+: m'.shown at hshown
    rw [Machine.shown, hline, hlater] at hshown
    obtain ⟨rest, rfl⟩ := (List.prefix_append_right_inj _).1 hshown
    exact ⟨_, rfl, hline, hheld⟩

lemma Laps.endsFiled {laps : List Lap} {more quiet : Bool} (hl : Laps p m laps more m') (hmore : more = false)
    (hp : ∀ c ∈ p, ∀ file ∈ c.action.files, Store.locate file ≠ .ok name) (hquiet : m.editor.quiet = quiet)
    (hshown : m.shown = []) (hlatin : ∀ line ∈ m'.shown, IsLatin1 line) (h : (Coupling.filing name).Couples m n)
    {budget : Nat} (hle : triedIn laps ≤ budget) :
    EndsFiled name (laps.head?.any Lap.quits) (shownOf quiet ((laps.take 1).flatMap Lap.lines))
      (shownOf quiet ((laps.drop 1).flatMap Lap.lines)) m' (runFrom p budget 0 n) := by
  have hfits : ∀ c ∈ p, (Coupling.filing name).Fits c := fun c hc => ⟨Frame.fits_all c, hp c hc⟩
  obtain ⟨rest, rfl⟩ := Nat.exists_eq_add_of_le hle
  cases hl with
  | none m => cases hmore
  | @last l hof =>
    obtain ⟨ts, stop, finish, hof', hlength, hfinish⟩ := hof.filing hfits hlatin h
    have hrun := runFrom_lap hof' rest
    rw [triedIn_cons, triedIn_nil, Nat.add_zero, ← hlength]
    unfold EndsFiled
    rw [List.head?_cons, Option.any_some]
    split
    case isTrue hquits =>
      rw [if_pos hquits] at hfinish
      exact ⟨finish, hrun, Filing.leftOpen hfinish.1.outside⟩
    case isFalse hquits =>
      rw [if_neg hquits] at hfinish
      exact ⟨finish, hrun, Filed.kept hfinish.outside⟩
  | @next l laps _ _ hof hrest =>
    subst hmore
    have hfirst : l.finish.shown = shownOf quiet l.lines := by
      rw [(hof.adds hquiet).1, hshown, List.nil_append]
    have hlater := hrest.adds (hof.adds hquiet).2.2
    have hlatin₁ : ∀ line ∈ l.finish.shown, IsLatin1 line := fun line hline =>
      hlatin line (hlater ▸ List.mem_append_left _ hline)
    obtain ⟨ts, stop, finish, hof', hlength, hfinish⟩ := hof.filing hfits hlatin₁ h
    have hquits : l.quits = false := by
      by_contra h
      rw [if_pos (by simpa using h)] at hfinish
      cases hfinish.2
    rw [hquits] at hfinish
    have hrun := runFrom_lap hof' (triedIn laps + rest)
    rw [hlength, ← Nat.add_assoc] at hrun
    rw [triedIn_cons, hrun]
    have hends := endsFiled_runFrom hp hfinish (runFrom_laps hrest rest) hlater
    rw [hfirst] at hends
    simpa [hquits] using hends

lemma Program.files_prepare (mode : RegexpMode) (q : Program) :
    (q.prepare mode).value.map (·.action.files) = q.map (·.action.files) := by
  refine Program.prepare_keeps mode (Command.prepare_keeps mode (fun _ _ => rfl) (fun _ _ => rfl) fun c => ?_) q
  have hsubstitution (s : Substitution) :
      (s.prepare mode).value.write = s.write ∧ (s.prepare mode).value.file = s.file := by
    rw [Substitution.prepare]
    repeat' split
    all_goals exact ⟨rfl, rfl⟩
  rw [Command.prepareAction]
  split <;> rename_i ha
  · simp only [ha, Action.files, (hsubstitution _).1, (hsubstitution _).2]
  · simp only [ha, Action.files]
  · rfl

end

def sampleWriting : Program :=
  [⟨1, none, none, false, .write ['f'], some 1, none⟩, ⟨2, some (.line 2), none, false, .delete, none, none⟩]

-- `q` is selected in the first cycle, and the line that is shown does not get into the file.
example :
    let m := final ((do loadText ['q']; apply 1 (.text ['a', '\n']) (.file ['g'])) ⟨{}, [], 1, false, #[], 0⟩)
    m.shown = [['a']] ∧ m.store.lookup ['g'] = some [] := by
  decide +kernel

end StreamEditor
