import StreamEditor.Proofs.Runs.Outside
import StreamEditor.Proofs.Script.Numbering

/-! Two machines at work side by side. A coupling says which of their parts are equal, how their readers are
related, and how what they show and write is; a command that uses only shared parts does the same in both, unless
the second machine is stopped because a line can not be written. -/

namespace StreamEditor

open Edit Outcome

inductive Part where
  | hold
  | lineNumber
  | input
  | lastLine
  | lastRegexp
  | ranges
  | trials
  | settings

/-- The parts that two machines share, and how their readers are related. -/
structure Frame where
  shared : Part → Prop
  reader : LineReader → LineReader → Prop
  input : shared .input → ∀ r r', reader r r' → r.readLine.1 = r'.readLine.1 ∧ reader r.readLine.2 r'.readLine.2
  lastLine : shared .lastLine → ∀ r r', reader r r' → r.isLast = r'.isLast
  trials : shared .trials → shared .hold ∧ shared .settings

def Address.uses : Address → List Part
  | .line _ => [.lineNumber]
  | .last => [.lastLine]
  | .regexp _ _ prepared => if prepared.isNone then [.lastRegexp] else []

def Action.uses : Action → List Part
  | .lineNumber => [.lineNumber]
  | .get | .getAppend | .exchange => [.hold]
  | .next | .nextAppend | .deleteFirst => [.input]
  | .substitute s => if s.target = .recalled then [.lastRegexp] else []
  | _ => []

def Command.uses (c : Command) : List Part :=
  c.first.toList.flatMap Address.uses ++ c.second.toList.flatMap Address.uses ++
    (if c.second.isSome then [.ranges] else []) ++ c.action.uses

def Frame.Fits (f : Frame) (c : Command) : Prop := ∀ part ∈ c.uses, f.shared part

def Action.files : Action → List Text
  | .read file | .write file => [file]
  | .substitute s => if s.write then [s.file] else []
  | _ => []

inductive Alike {α : Type} (R : Machine → Machine → Prop) :
    EStateM.Result Failure Machine α → EStateM.Result Failure Machine α → Prop
  | ok (a : α) {m n : Machine} : R m n → Alike R (.ok a m) (.ok a n)
  | error (e : Failure) {m n : Machine} : R m n → Alike R (.error e m) (.error e n)

section

variable {α β : Type} {R : Machine → Machine → Prop} {m n : Machine}

lemma Alike.bind {x y : Edit α} {g g' : α → Edit β} (hx : Alike R (x m) (y n))
    (hg : ∀ a m' n', R m' n' → Alike R (g a m') (g' a n')) : Alike R ((x >>= g) m) ((y >>= g') n) := by
  generalize hm : x m = r, hn : y n = r' at hx
  cases hx with
  | ok a h =>
    rw [bind_ok hm, bind_ok hn]
    exact hg a _ _ h
  | error e h =>
    rw [bind_error hm, bind_error hn]
    exact .error e h

lemma Alike.of_ok {x y : Edit α} {a : α} {m' : Machine} (h : Alike R (x m) (y n)) (hx : x m = .ok a m') :
    ∃ n', y n = .ok a n' ∧ R m' n' := by
  rw [hx] at h
  generalize y n = r at h
  cases h with
  | ok _ h => exact ⟨_, rfl, h⟩

lemma Alike.mono {R' : Machine → Machine → Prop} {r r' : EStateM.Result Failure Machine α} (h : Alike R r r')
    (hR : ∀ m n, R m n → R' m n) : Alike R' r r' := by
  cases h with
  | ok a h => exact .ok a (hR _ _ h)
  | error e h => exact .error e (hR _ _ h)

lemma alike_after_editor {g g' : Editor → Edit β} (h : Alike R (g m.editor m) (g' n.editor n)) :
    Alike R ((editor >>= g) m) ((editor >>= g') n) := h

lemma alike_after_get {g g' : Machine → Edit β} (h : Alike R (g m m) (g' n n)) :
    Alike R ((get >>= g) m) ((get >>= g') n) := h

lemma alike_update {g g' : Editor → Editor}
    (h : R { m with editor := g m.editor } { n with editor := g' n.editor }) :
    Alike R (update g m) (update g' n) := .ok () h

end

inductive Showing (R : Outside → Outside → Prop) (stops : Failure → Outside → Prop) :
    Outside × Option Failure → Outside × Option Failure → Prop
  | same {o o' : Outside} (e : Option Failure) : R o o' → Showing R stops (o, e) (o', e)
  | stopped {r : Outside × Option Failure} {e : Failure} {o' : Outside} :
      o'.printed = r.1.printed → stops e o' → Showing R stops r (o', some e)

lemma Showing.autoprint {R : Outside → Outside → Prop} {stops : Failure → Outside → Prop} {o o' : Outside} {t : Text}
    (hprint : Showing R stops (o.print t) (o'.print t)) (h : R o o') (hq : o.quiet = o'.quiet) :
    Showing R stops (o.autoprint t) (o'.autoprint t) := by
  rw [Outside.autoprint, Outside.autoprint, hq]
  split
  · exact .same none h
  · exact hprint

/-- A frame, and how what the machines show and write is related. -/
structure Coupling extends Frame where
  outside : Outside → Outside → Prop
  stops : Failure → Outside → Prop
  file : Text → Prop
  print : ∀ o o', outside o o' → ∀ t, Showing outside stops (o.print t) (o'.print t)
  autoprint : ∀ o o', outside o o' → ∀ t, Showing outside stops (o.autoprint t) (o'.autoprint t)
  read : ∀ o o', outside o o' → ∀ path, file path → fileLines o.store path = fileLines o'.store path
  write : ∀ o o', outside o o' → ∀ path, file path → ∀ bytes s s', o.store.append path bytes = .ok s →
    o'.store.append path bytes = .ok s' → outside { o with store := s } { o' with store := s' }

def Machine.fixed (m : Machine) : Option Program × Bool × Bool × Nat × Nat :=
  (m.editor.program, m.editor.extended, m.deferred, m.nextNumber, m.trialLimit)

structure Coupling.Couples (k : Coupling) (m n : Machine) : Prop where
  pattern : m.editor.pattern = n.editor.pattern
  substituted : m.editor.substituted = n.editor.substituted
  queue : m.editor.queue = n.editor.queue
  outside : k.outside m.outside n.outside
  reader : k.reader m.editor.reader n.editor.reader
  hold : k.shared .hold → m.editor.hold = n.editor.hold
  lineNumber : k.shared .lineNumber → m.editor.lineNumber = n.editor.lineNumber
  lastRegexp : k.shared .lastRegexp → m.editor.lastRegexp = n.editor.lastRegexp
  ranges : k.shared .ranges → m.editor.ranges = n.editor.ranges
  trials : k.shared .trials → m.trials = n.trials
  fixed : k.shared .settings → m.fixed = n.fixed

def Coupling.Fits (k : Coupling) (c : Command) : Prop :=
  k.toFrame.Fits c ∧ ∀ path ∈ c.action.files, k.file path

/-- The work of one machine and that of another: alike, or the other is stopped once it has shown a first part of
what is shown. -/
inductive Tracks {α : Type} (k : Coupling) :
    EStateM.Result Failure Machine α → EStateM.Result Failure Machine α → Prop
  | ok (a : α) {m n : Machine} : k.Couples m n → Tracks k (.ok a m) (.ok a n)
  | error (e : Failure) {m n : Machine} : k.Couples m n → Tracks k (.error e m) (.error e n)
  | stopped {r : EStateM.Result Failure Machine α} {e : Failure} {n : Machine} :
      n.shown <+: (final r).shown → k.stops e n.outside → Tracks k r (.error e n)

section

variable {α β : Type} {k : Coupling} {m n : Machine} {x y : Edit α} {g g' : α → Edit β}

lemma Tracks.bind (hx : Tracks k (x m) (y n)) (hgrows : ∀ a, Grows (g a))
    (hg : ∀ a m' n', k.Couples m' n' → Tracks k (g a m') (g' a n')) : Tracks k ((x >>= g) m) ((y >>= g') n) := by
  generalize hm : x m = r, hn : y n = r' at hx
  cases hx with
  | ok a h =>
    rw [bind_ok hm, bind_ok hn]
    exact hg a _ _ h
  | error e h =>
    rw [bind_error hm, bind_error hn]
    exact .error e h
  | stopped hshown hs =>
    rw [bind_error hn]
    refine .stopped ?_ hs
    cases r with
    | ok a m' =>
      rw [bind_ok hm]
      exact hshown.trans (hgrows a m')
    | error e m' =>
      rw [bind_error hm]
      exact hshown

lemma Tracks.done (hx : Tracks k (x m) (y n)) (f : α → β) :
    Tracks k ((x >>= fun a => pure (f a)) m) ((y >>= fun a => pure (f a)) n) :=
  hx.bind (fun _ => grows_pure _) fun _ _ _ h => .ok _ h

lemma Alike.tracks {r r' : EStateM.Result Failure Machine α} (h : Alike k.Couples r r') : Tracks k r r' := by
  cases h with
  | ok a h => exact .ok a h
  | error e h => exact .error e h

lemma Tracks.alike {r r' : EStateM.Result Failure Machine α} (h : Tracks k r r') (hs : ∀ e o, ¬k.stops e o) :
    Alike k.Couples r r' := by
  cases h with
  | ok a h => exact .ok a h
  | error e h => exact .error e h
  | stopped _ h => exact absurd h (hs _ _)

lemma Tracks.after (hx : Alike k.Couples (x m) (y n))
    (hg : ∀ a m' n', k.Couples m' n' → Tracks k (g a m') (g' a n')) : Tracks k ((x >>= g) m) ((y >>= g') n) := by
  generalize hm : x m = r, hn : y n = r' at hx
  cases hx with
  | ok a h =>
    rw [bind_ok hm, bind_ok hn]
    exact hg a _ _ h
  | error e h =>
    rw [bind_error hm, bind_error hn]
    exact .error e h

lemma tracks_after_editor {g g' : Editor → Edit β} (h : Tracks k (g m.editor m) (g' n.editor n)) :
    Tracks k ((editor >>= g) m) ((editor >>= g') n) := h

lemma tracks_after_get {g g' : Machine → Edit β} (h : Tracks k (g m m) (g' n n)) :
    Tracks k ((get >>= g) m) ((get >>= g') n) := h

end

namespace Coupling.Couples

variable {k : Coupling} {m n : Machine}

lemma space (h : k.Couples m n) : m.space = n.space := by
  rw [Machine.space, h.pattern]

lemma face (h : k.Couples m n) {r r' : Outside × Option Failure} (hr : Showing k.outside k.stops r r') :
    Tracks k (m.face r) (n.face r') := by
  cases hr with
  | same e ho =>
    cases e with
    | none => exact .ok () { h with outside := ho }
    | some e => exact .error e { h with outside := ho }
  | @stopped _ e o' hp hs =>
    have hshown : (n.facing o').shown = (final (m.face r)).shown := by
      change o'.printed.toList = _
      rw [hp, Machine.face]
      cases r.2 <;> rfl
    exact .stopped (hshown ▸ List.prefix_rfl) hs

lemma print (h : k.Couples m n) (t : Text) : Tracks k (Edit.print t m) (Edit.print t n) := by
  rw [print_eq, print_eq]
  exact h.face (k.print _ _ h.outside t)

lemma showAuto (h : k.Couples m n) (t : Text) : Tracks k (showAuto t m) (showAuto t n) := by
  rw [showAuto_eq, showAuto_eq]
  exact h.face (k.autoprint _ _ h.outside t)

lemma prints (h : k.Couples m n) (ts : List Text) : Tracks k (ts.forM Edit.print m) (ts.forM Edit.print n) := by
  induction ts generalizing m n with
  | nil => exact .ok _ h
  | cons t ts ih => exact (h.print t).bind (fun _ => (Within.forM work_print ts).grows) fun _ _ _ h => ih h

lemma readPattern (h : k.Couples m n) : Alike k.Couples (Edit.pattern m) (Edit.pattern n) := by
  change Alike k.Couples (.ok m.space m) (.ok n.space n)
  rw [h.space]
  exact .ok _ h

lemma setPattern (h : k.Couples m n) (t : Option Text) : Alike k.Couples (setPattern t m) (setPattern t n) :=
  alike_update { h with pattern := rfl }

lemma lift (h : k.Couples m n) {α : Type} (r : Except Failure α) : Alike k.Couples (lift r m) (lift r n) := by
  cases r with
  | ok a => exact .ok a h
  | error e => exact .error e h

lemma readLine (h : k.Couples m n) (hk : k.shared .input) : Alike k.Couples (readLine m) (readLine n) := by
  obtain ⟨hl, hr⟩ := k.input hk _ _ h.reader
  change Alike k.Couples (.ok (m.editor.reader.readLine.1.map Text.chomp) _)
    (.ok (n.editor.reader.readLine.1.map Text.chomp) _)
  rw [hl]
  exact .ok _ { h with
    reader := hr
    substituted := rfl
    lineNumber := fun hn => by
      change (if m.editor.reader.readLine.1.isSome then m.editor.lineNumber + 1 else m.editor.lineNumber) =
        if n.editor.reader.readLine.1.isSome then n.editor.lineNumber + 1 else n.editor.lineNumber
      rw [hl, h.lineNumber hn] }

lemma takeLine (h : k.Couples m n) (hk : k.shared .input) : Alike k.Couples (takeLine m) (takeLine n) :=
  .bind (h.readLine hk) fun line _ _ h => .bind (h.setPattern line) fun _ _ _ h => .ok _ h

lemma useRegexp (h : k.Couples m n) {x : Option Regexp} (hx : x = none → k.shared .lastRegexp) :
    Alike k.Couples (useRegexp x m) (useRegexp x n) := by
  cases x with
  | some x => exact .bind (alike_update { h with lastRegexp := fun _ => rfl }) fun _ _ _ h => .ok x h
  | none =>
    refine alike_after_editor ?_
    rw [h.lastRegexp (hx rfl)]
    cases n.editor.lastRegexp with
    | some x => exact .ok x h
    | none => exact .error _ h

lemma writeFile (h : k.Couples m n) {path : Text} (hpath : k.file path) (line : Text) :
    Alike k.Couples (writeFile path line m) (writeFile path line n) := by
  have hwrite := k.write _ _ h.outside path hpath (Text.toUtf8 (line ++ ['\n']))
  refine alike_after_get ?_
  -- whether a file can be written does not depend on what is stored
  rw [Store.append, Store.append] at hwrite ⊢
  cases hl : Store.locate path with
  | ok name =>
    rw [hl] at hwrite
    exact .ok () { h with outside := hwrite _ _ rfl rfl }
  | error e => exact .error e h

lemma selects (h : k.Couples m n) {a : Address} (ha : ∀ part ∈ a.uses, k.shared part) :
    Alike k.Couples (a.selects m) (a.selects n) := by
  cases a with
  | line i =>
    refine alike_after_editor ?_
    rw [h.lineNumber (ha _ (by simp [Address.uses]))]
    exact .ok _ h
  | last =>
    refine alike_after_editor ?_
    rw [k.lastLine (ha _ (by simp [Address.uses])) _ _ h.reader]
    exact .ok _ h
  | regexp source ignoreCase prepared =>
    have hx : prepared = none → k.shared .lastRegexp := fun hp => ha _ (by simp [Address.uses, hp])
    refine .bind (h.useRegexp hx) fun x _ _ h => .bind h.readPattern fun t _ _ h => ?_
    cases x.search t with
    | ok found => exact .ok found h
    | error e => exact .error _ h

lemma inRange (h : k.Couples m n) (hr : k.shared .ranges) {a b : Address} (ha : ∀ part ∈ a.uses, k.shared part)
    (hb : ∀ part ∈ b.uses, k.shared part) (i : Nat) :
    Alike k.Couples (Command.inRange i a b m) (Command.inRange i a b n) := by
  refine alike_after_editor ?_
  rw [h.ranges hr]
  dsimp only
  split
  · refine .bind (h.selects hb) fun found _ _ h => ?_
    cases found with
    | true =>
      exact .bind (alike_update { h with ranges := fun hr => congrArg (List.erase · i) (h.ranges hr) })
        fun _ _ _ h => .ok true h
    | false => exact .ok true h
  · refine .bind (h.selects ha) fun found _ _ h => ?_
    cases found with
    | true =>
      exact .bind (alike_update { h with ranges := fun hr => congrArg (i :: ·) (h.ranges hr) })
        fun _ _ _ h => .ok true h
    | false => exact .ok false h

lemma selected (h : k.Couples m n) {c : Command} (hc : k.Fits c) (i : Nat) :
    Alike k.Couples (c.selected i m) (c.selected i n) := by
  rw [Command.selected]
  cases ha : c.first with
  | none => exact .ok _ h
  | some a =>
    have hfirst : ∀ part ∈ a.uses, k.shared part := fun part hp => hc.1 part (by simp [Command.uses, ha, hp])
    cases hb : c.second with
    | none => exact .bind (h.selects hfirst) fun found _ _ h => .ok _ h
    | some b =>
      have hsecond : ∀ part ∈ b.uses, k.shared part := fun part hp => hc.1 part (by simp [Command.uses, hb, hp])
      have hranges : k.shared .ranges := hc.1 _ (by simp [Command.uses, hb])
      exact .bind (h.inRange hranges hfirst hsecond i) fun found _ _ h => .ok _ h

lemma substitution (h : k.Couples m n) {s : Substitution} (hs : s.target = .recalled → k.shared .lastRegexp)
    (hfile : s.write → k.file s.file) : Tracks k (s.execute m) (s.execute n) := by
  rw [s.execute_eq]
  have hchoose : Alike k.Couples (s.choose m) (s.choose n) := by
    rw [Substitution.choose]
    cases ht : s.target with
    | pending => exact .error _ h
    | recalled => exact h.useRegexp fun _ => hs ht
    | own x => exact h.useRegexp (by simp)
  refine .after hchoose fun x _ _ h => .after h.readPattern fun t _ _ h => .after (h.lift _) fun r _ _ h => ?_
  cases r with
  | none => exact .ok () h
  | some t =>
    have hwrite {m n : Machine} (h : k.Couples m n) :
        Alike k.Couples ((if s.write then Edit.writeFile s.file t else pure ()) m)
          ((if s.write then Edit.writeFile s.file t else pure ()) n) := by
      cases hw : s.write with
      | true => exact h.writeFile (hfile hw) t
      | false => exact .ok () h
    have hgrows : Grows (if s.write then Edit.writeFile s.file t else pure ()) := by
      split
      · exact (work_writeFile s.file t).grows
      · exact grows_pure _
    refine .after (alike_update { h with pattern := rfl, substituted := rfl }) fun _ _ _ h => ?_
    cases s.print with
    | true => exact (h.print t).bind (fun _ => hgrows) fun _ _ _ h => (hwrite h).tracks
    | false => exact (hwrite h).tracks

lemma transliteration (h : k.Couples m n) (y : Transliteration) : Alike k.Couples (y.execute m) (y.execute n) := by
  refine .bind h.readPattern fun t _ _ h => ?_
  cases y.table with
  | some table => exact h.setPattern _
  | none =>
    dsimp only
    split
    · exact .ok () h
    · exact .error _ h

-- One case for each action; only what `uses` and `files` tell of it matters.
lemma perform (h : k.Couples m n) {c : Command} (hc : k.Fits c) (i : Nat) :
    Tracks k (c.perform i m) (c.perform i n) := by
  have huses : ∀ part ∈ c.action.uses, k.shared part := fun part hp => hc.1 part (by simp [Command.uses, hp])
  have hfiles := hc.2
  rw [Command.perform]
  cases ha : c.action with
  | openBlock | branch label | closeBlock | label name | quit => exact .ok _ h
  | append t =>
    exact .after (alike_update { h with queue := congrArg (· ++ [t]) h.queue }) fun _ _ _ h => .ok _ h
  | change t =>
    have hstop {m n : Machine} (h : k.Couples m n) :
        Tracks k ((do Edit.setPattern none; return Flow.stop) m) ((do Edit.setPattern none; return Flow.stop) n) :=
      .after (h.setPattern none) fun _ _ _ h => .ok _ h
    have hprint : Tracks k ((do Edit.print t; Edit.setPattern none; return Flow.stop) m)
        ((do Edit.print t; Edit.setPattern none; return Flow.stop) n) :=
      (h.print t).bind (fun _ => Within.grows (.bind (within_setPattern none) fun _ => .pure _))
        fun _ _ _ h => hstop h
    refine tracks_after_editor ?_
    cases hb : c.second with
    | none => exact hprint
    | some b =>
      rw [h.ranges (hc.1 _ (by simp [Command.uses, hb]))]
      dsimp only
      split
      · exact hprint
      · exact hstop h
  | delete => exact .after (h.setPattern none) fun _ _ _ h => .ok _ h
  | deleteFirst =>
    have hinput : k.shared .input := huses _ (by simp [ha, Action.uses])
    refine .after h.readPattern fun t _ _ h => ?_
    dsimp only
    split
    · exact .after (h.setPattern _) fun _ _ _ h => .ok _ h
    · refine .after (h.setPattern _) fun _ _ _ h => .after (h.readLine hinput) fun line _ _ h => ?_
      exact .after (h.setPattern line) fun _ _ _ h => .ok _ h
  | lineNumber =>
    refine tracks_after_editor ?_
    rw [h.lineNumber (huses _ (by simp [ha, Action.uses]))]
    exact (h.print _).done _
  | get =>
    refine tracks_after_editor ?_
    rw [h.hold (huses _ (by simp [ha, Action.uses]))]
    exact .after (h.setPattern _) fun _ _ _ h => .ok _ h
  | getAppend =>
    refine .after h.readPattern fun t _ _ h => tracks_after_editor ?_
    rw [h.hold (huses _ (by simp [ha, Action.uses]))]
    exact .after (h.setPattern _) fun _ _ _ h => .ok _ h
  | hold =>
    refine .after h.readPattern fun t _ _ h => ?_
    exact .after (alike_update { h with hold := fun _ => rfl }) fun _ _ _ h => .ok _ h
  | holdAppend =>
    refine .after h.readPattern fun t _ _ h => ?_
    exact .after (alike_update { h with hold := fun hs => congrArg (· ++ '\n' :: t) (h.hold hs) })
      fun _ _ _ h => .ok _ h
  | exchange =>
    refine .after h.readPattern fun t _ _ h => ?_
    have hhold := h.hold (huses _ (by simp [ha, Action.uses]))
    exact .after (alike_update { h with pattern := congrArg some hhold, hold := fun _ => rfl }) fun _ _ _ h => .ok _ h
  | insert t => exact (h.print t).done _
  | list => exact .after h.readPattern fun t _ _ h => (h.prints _).done _
  | next =>
    have hinput : k.shared .input := huses _ (by simp [ha, Action.uses])
    have hm := perform_next m ha i
    have hn := perform_next n ha i
    rw [Command.perform, ha] at hm hn
    rw [hm, hn, h.space]
    exact (h.showAuto _).bind (fun _ => within_takeLine.grows) fun _ _ _ h => (h.takeLine hinput).tracks
  | nextAppend =>
    have hinput : k.shared .input := huses _ (by simp [ha, Action.uses])
    refine .after (h.readLine hinput) fun line _ _ h => ?_
    cases line with
    | none => exact .ok _ h
    | some line =>
      refine .after h.readPattern fun t _ _ h => ?_
      exact .after (h.setPattern _) fun _ _ _ h => .ok _ h
  | print | printFirst => exact .after h.readPattern fun t _ _ h => (h.print _).done _
  | read file =>
    have hread := k.read _ _ h.outside file (hfiles _ (by simp [ha, Action.files]))
    refine tracks_after_get ?_
    exact .after (alike_update { h with queue := congrArg₂ (· ++ ·) h.queue hread }) fun _ _ _ h => .ok _ h
  | substitute s =>
    have hfile (hw : s.write) : k.file s.file := hfiles _ (by simp [ha, Action.files, hw])
    exact (h.substitution (fun hs => huses _ (by simp [ha, Action.uses, hs])) hfile).done _
  | test label =>
    refine tracks_after_editor ?_
    rw [h.substituted]
    split
    · exact .after (alike_update { h with substituted := rfl }) fun _ _ _ h => .ok _ h
    · exact .ok _ h
  | write file =>
    refine .after h.readPattern fun t _ _ h => ?_
    exact .after (h.writeFile (hfiles _ (by simp [ha, Action.files])) t) fun _ _ _ h => .ok _ h
  | transliterate y => exact .after (h.transliteration y) fun _ _ _ h => .ok _ h

lemma attempt (h : k.Couples m n) {c : Command} (hc : k.Fits c) (i : Nat) :
    Tracks k (c.attempt i m) (c.attempt i n) := by
  refine .after (h.selected hc i) fun found _ _ h => ?_
  cases found with
  | true => exact (h.perform hc i).done _
  | false => exact .ok _ h

lemma record (h : k.Couples m n) {c c' : Command} (hc : k.shared .trials → c.number = c'.number) (selected : Bool) :
    Alike k.Couples (record c selected m) (record c' selected n) := by
  change Alike k.Couples (.ok () (if m.trials.size < m.trialLimit then _ else m)) (.ok () (if _ then _ else n))
  by_cases hs : k.shared .trials
  · obtain ⟨hhold, hset⟩ := k.trials hs
    have hlimit : m.trialLimit = n.trialLimit := congrArg (·.2.2.2.2) (h.fixed hset)
    rw [h.trials hs, hlimit, h.pattern, h.hold hhold, hc hs]
    split
    · exact .ok () { h with
        trials := fun _ => rfl
        fixed := fun hset => by simpa [Machine.fixed, hlimit] using h.fixed hset }
    · exact .ok () h
  · split <;> split <;> exact .ok () { h with trials := fun ht => absurd ht hs }

lemma showCycle (h : k.Couples m n) (last : Command) : Tracks k (showCycle last m) (showCycle last n) := by
  have hflush {m n : Machine} (h : k.Couples m n) : Tracks k (flushQueue m) (flushQueue n) := by
    refine tracks_after_editor ?_
    rw [h.queue]
    exact (h.prints _).bind (fun _ => Within.grows (.modify fun _ => .single .dequeue))
      fun _ _ _ h => Alike.tracks (alike_update { h with queue := rfl })
  rw [showCycle_auto, showCycle_auto, h.pattern]
  cases (if last.action = .deleteFirst then none else n.editor.pattern) with
  | none => exact hflush h
  | some t => exact (h.showAuto t).bind (fun _ => within_flushQueue.grows) fun _ _ _ h => hflush h

end Coupling.Couples

def Coupling.Matches (k : Coupling) (p p' : Program) : Prop :=
  p.map Command.unnumbered = p'.map Command.unnumbered ∧ (k.shared .trials → p = p')

lemma Coupling.matches_refl (k : Coupling) (p : Program) : k.Matches p p := ⟨rfl, fun _ => rfl⟩

lemma Coupling.Matches.command {k : Coupling} {p p' : Program} (h : k.Matches p p') {i : Nat} {c : Command}
    (hc : p[i]? = some c) :
    ∃ number, p'[i]? = some { c with number } ∧ (k.shared .trials → c.number = number) := by
  obtain ⟨c', hc', hsame⟩ := getElem?_of_map_eq h.1 hc
  have hnumber : { c with number := c'.number } = c' := by
    cases c
    cases c'
    simpa [Command.unnumbered, eq_comm] using hsame
  refine ⟨c'.number, hnumber ▸ hc', fun hs => ?_⟩
  rw [← h.2 hs, hc] at hc'
  exact congrArg Command.number (Option.some.inj hc')

lemma Coupling.Matches.none {k : Coupling} {p p' : Program} (h : k.Matches p p') {i : Nat} (hi : p[i]? = none) :
    p'[i]? = none := by
  have hlength := congrArg List.length h.1
  rw [List.length_map, List.length_map] at hlength
  rwa [List.getElem?_eq_none_iff, ← hlength, ← List.getElem?_eq_none_iff]

def Coupling.Closes (k : Coupling) : Prop := ∀ o o', k.outside o o' → k.outside o.close o'.close

namespace Coupling.Couples

section

variable {k k' : Coupling} {m n : Machine}

lemma close (h : k.Couples m n) (hframe : k'.toFrame = k.toFrame)
    (hclose : k'.outside m.outside.close n.outside.close) :
    k'.Couples (m.facing m.outside.close) (n.facing n.outside.close) :=
  ⟨h.pattern, h.substituted, h.queue, hclose, hframe ▸ h.reader, hframe ▸ h.hold, hframe ▸ h.lineNumber,
    hframe ▸ h.lastRegexp, hframe ▸ h.ranges, hframe ▸ h.trials, hframe ▸ h.fixed⟩

lemma advance (h : k.Couples m n) (hk : k.shared .input) (last : Command) :
    Alike k.Couples (advance last m) (advance last n) := by
  rw [StreamEditor.advance]
  split
  · exact .bind (h.readLine hk) fun line _ _ h => h.setPattern line
  · exact .ok () h

lemma nextCycle (h : k.Couples m n) (hk : k.shared .input) (hframe : k'.toFrame = k.toFrame)
    (hclose : k'.outside m.outside.close n.outside.close) (last : Command) :
    Alike k'.Couples (nextCycle last m) (nextCycle last n) := by
  obtain ⟨m₁, hm, hm'⟩ := advance_eq_ok last m
  obtain ⟨n₁, hn, hn'⟩ := advance_eq_ok last n
  have h₁ : k.Couples m₁ n₁ := by
    have hadvance := h.advance hk last
    rw [hm, hn] at hadvance
    cases hadvance with
    | ok _ h => exact h
  rw [nextCycle_eq, bind_ok hm, bind_ok hn, bind_ok (closeOutput_facing m₁), bind_ok (closeOutput_facing n₁)]
  change Alike k'.Couples (.ok m₁.editor.pattern.isSome _) (.ok n₁.editor.pattern.isSome _)
  rw [h₁.pattern]
  rw [← hm', ← hn'] at hclose
  exact .ok _ (h₁.close hframe hclose)

end

section

variable {k : Coupling} (hk : k.shared .input) (hclose : k.Closes) {m n : Machine}
include hk hclose

lemma endCycle (h : k.Couples m n) (last : Command) (selected : Bool) :
    Tracks k (endCycle last selected m) (endCycle last selected n) := by
  refine (h.showCycle last).bind (fun _ => ?_) fun _ _ _ h => ?_
  · split
    · exact grows_pure _
    · exact (within_nextCycle last).grows
  · split
    · exact .ok _ h
    · exact (h.nextCycle hk rfl (hclose _ _ h.outside) last).tracks

variable {p p' : Program} (hp : ∀ c ∈ p, k.Fits c) (hpp : k.Matches p p')
include hp hpp

lemma turn (h : k.Couples m n) (i : Nat) : Tracks k (turn p i m) (turn p' i n) := by
  rw [StreamEditor.turn, StreamEditor.turn]
  cases hc : p[i]? with
  | none =>
    rw [hpp.none hc]
    exact .ok _ h
  | some c =>
    obtain ⟨number, hc', hnumber⟩ := hpp.command hc
    rw [hc']
    -- the number of a command does not matter for what it does
    change Tracks k ((c.attempt i >>= _) m) ((c.attempt i >>= _) n)
    refine (h.attempt (hp c (List.mem_of_getElem? hc)) i).bind (fun r => (work_afterAttempt c r).grows)
      fun r _ _ h => .after (h.record hnumber r.1) fun _ _ _ h => ?_
    have hfollow : Command.follow { c with number } r.2 = c.follow r.2 := rfl
    rw [hfollow]
    cases c.follow r.2 with
    | some j => exact .ok _ h
    | none =>
      refine (h.endCycle hk hclose c r.1).bind (fun more => ?_) fun more _ _ h => ?_
      · cases more <;> exact grows_pure _
      · cases more <;> exact .ok _ h

lemma runFrom (h : k.Couples m n) (budget i : Nat) : Tracks k (runFrom p budget i m) (runFrom p' budget i n) := by
  induction budget generalizing m n i with
  | zero => exact .error _ h
  | succ budget ih =>
    refine (h.turn hk hclose hp hpp i).bind (fun next => ?_) fun next _ _ h => ?_
    · cases next with
      | some j => exact grows_runFrom p budget j
      | none => exact grows_pure _
    · cases next with
      | some j => exact ih h j
      | none => exact .ok () h

end

section

variable {k : Coupling} {m n : Machine} {c : Command} (hc : k.Fits c)
include hc

lemma lines_eq (h : k.Couples m n) (i : Nat) : c.lines i m = c.lines i n := by
  have huses : ∀ part ∈ c.action.uses, k.shared part := fun part hp => hc.1 part (by simp [Command.uses, hp])
  rw [Command.lines, Command.lines]
  cases ha : c.action with
  | change t =>
    cases hb : c.second with
    | none => rfl
    | some b => rw [h.ranges (hc.1 _ (by simp [Command.uses, hb]))]
  | lineNumber => rw [h.lineNumber (huses _ (by simp [ha, Action.uses]))]
  | list | next | print | printFirst => rw [h.space]
  | substitute s =>
    have hregexp : s.regexp? m = s.regexp? n := by
      rw [Substitution.regexp?, Substitution.regexp?]
      cases ht : s.target with
      | pending | own x => rfl
      | recalled => exact h.lastRegexp (huses _ (by simp [ha, Action.uses, ht]))
    have hmade : s.made? m = s.made? n := by rw [Substitution.made?, Substitution.made?, hregexp, h.space]
    dsimp only
    rw [hmade]
  | _ => rfl

lemma queued_eq (h : k.Couples m n) : c.queued m = c.queued n := by
  have hfiles := hc.2
  rw [Command.queued, Command.queued]
  cases ha : c.action with
  | read file => exact k.read _ _ h.outside file (hfiles _ (by simp [ha, Action.files]))
  | _ => rfl

end

end Coupling.Couples

def Frame.together (f : Frame) : Coupling where
  toFrame := f
  outside o o' := o = o'
  stops _ _ := False
  file _ := True
  print := by
    rintro o _ rfl t
    exact .same (o.print t).2 rfl
  autoprint := by
    rintro o _ rfl t
    exact .same (o.autoprint t).2 rfl
  read := by
    rintro o _ rfl path -
    rfl
  write := by
    rintro o _ rfl path - bytes s s' hs hs'
    rw [hs] at hs'
    cases hs'
    rfl

section

variable {f : Frame} {m n : Machine}

lemma Frame.runFrom_together (hf : f.shared .input) {p : Program} (hp : ∀ c ∈ p, f.Fits c) (budget i : Nat)
    (h : f.together.Couples m n) : Alike f.together.Couples (runFrom p budget i m) (runFrom p budget i n) := by
  have hclose : f.together.Closes := fun o o' ho => congrArg Outside.close ho
  have hfits : ∀ c ∈ p, f.together.Fits c := fun c hc => ⟨hp c hc, fun _ _ => trivial⟩
  exact (h.runFrom hf hclose hfits (Coupling.matches_refl _ p) budget i).alike fun _ _ h => h

end

end StreamEditor
