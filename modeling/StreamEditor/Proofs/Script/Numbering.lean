import StreamEditor.Proofs.Script.Links

/-! Numbers of commands. They are counted on from one script to the next; apart from them a script is read, linked and
prepared in the same way wherever the counting starts. -/

namespace StreamEditor

open Script

def Command.unnumbered (c : Command) : Command := { c with number := 0 }

namespace Script

section

variable {α β γ δ : Type} {f : α → γ} {h : β → δ}

def outcome (f : α → γ) (r : EStateM.Result Failure Nat α) : Except Failure γ :=
  match r with
  | .ok a _ => .ok (f a)
  | .error e _ => .error e

def Uncounted (f : α → γ) (x y : Reading α) : Prop := ∀ n n', outcome f (x n) = outcome f (y n')

lemma Uncounted.pure {a b : α} (hab : f a = f b) : Uncounted f (pure a) (pure b) :=
  fun _ _ => congrArg Except.ok hab

lemma Uncounted.throw (e : Failure) : Uncounted f (throw e) (throw e) := fun _ _ => rfl

lemma Uncounted.lift {r r' : Except Failure α} (hr : r.map f = r'.map f) :
    Uncounted f (Reading.lift r) (Reading.lift r') := by
  have hlift (r : Except Failure α) (n : Nat) : outcome f (Reading.lift r n) = r.map f := by
    cases r <;> rfl
  intro n n'
  rw [hlift, hlift, hr]

lemma Uncounted.bind {x y : Reading α} {g g' : α → Reading β} (hx : Uncounted f x y)
    (hg : ∀ a b, f a = f b → Uncounted h (g a) (g' b)) : Uncounted h (x >>= g) (y >>= g') := by
  intro n n'
  have hxy := hx n n'
  change outcome h (EStateM.bind x g n) = outcome h (EStateM.bind y g' n')
  rw [EStateM.bind, EStateM.bind]
  generalize x n = r, y n' = r' at hxy
  cases r with
  | ok a k =>
    cases r' with
    | ok b k' => exact hg a b (Except.ok.inj hxy) k k'
    | error e k' => cases hxy
  | error e k =>
    cases r' with
    | ok b k' => cases hxy
    | error e' k' =>
      obtain rfl := Except.error.inj hxy
      rfl

end

lemma uncounted_command (line : Text) :
    Uncounted (fun r => (r.1, r.2.map Command.unnumbered)) (command line) (command line) := by
  rw [command]
  refine .bind (.lift (f := id) rfl) fun a b hab => ?_
  obtain rfl : a = b := hab
  obtain ⟨i, first, second, negated⟩ := a
  dsimp only
  split
  · rename_i i c _
    split
    · split
      · exact .throw _
      · exact .pure rfl
    · split
      · exact .throw _
      · split
        · exact .throw _
        · -- only the number differs
          intro n n'
          change outcome _ ((Reading.lift (action line i c) >>= fun r => _) (n + 1)) =
            outcome _ ((Reading.lift (action line i c) >>= fun r => _) (n' + 1))
          cases action line i c <;> rfl
  · split
    · exact .throw _
    · exact .pure rfl

lemma uncounted_lineCommands (line : Text) :
    Uncounted (List.map Command.unnumbered) (lineCommands line) (lineCommands line) := by
  induction line using lineCommands.induct with
  | case1 =>
    rw [lineCommands]
    exact .pure rfl
  | case2 c rest ih =>
    rw [lineCommands]
    refine .bind (uncounted_command _) ?_
    rintro ⟨i, d⟩ ⟨j, e⟩ hab
    obtain ⟨rfl, hde⟩ := Prod.mk.inj hab
    refine .bind (ih i) fun cs ds hcs => .pure ?_
    rw [List.map_append, List.map_append, hcs, ← Option.toList_map, ← Option.toList_map, hde]

lemma uncounted_commands (lines : List Text) :
    Uncounted (List.map Command.unnumbered) (commands lines) (commands lines) := by
  induction lines with
  | nil => exact .pure rfl
  | cons line lines ih =>
    refine .bind (uncounted_lineCommands line) fun cs ds hcs => .bind ih fun cs' ds' hcs' => .pure ?_
    rw [List.map_append, List.map_append, hcs, hcs']

lemma labelIndex?_unnumbered (cs : List Command) (name : Text) :
    labelIndex? (cs.map Command.unnumbered) name = labelIndex? cs name := by
  rw [labelIndex?, labelIndex?, List.zipIdx_map, List.filterMap_map]
  rfl

lemma resolve_unnumbered (cs : List Command) (c : Command) :
    resolve (cs.map Command.unnumbered) c.unnumbered = (resolve cs c).map Command.unnumbered := by
  have hbranch (name : Text) : labelBranch (cs.map Command.unnumbered) name = labelBranch cs name := by
    rw [labelBranch, labelIndex?_unnumbered]
    rfl
  cases ha : c.action with
  | branch name | test name =>
    simp only [resolve, Command.unnumbered, ha, hbranch]
    cases labelBranch cs (Text.trimRight name) <;> rfl
  | _ => simp [resolve, Command.unnumbered, ha, Except.map]

lemma linkAt_unnumbered (size : Nat) (ends : List (Nat × Nat)) (c : Command) (i : Nat) :
    linkAt size ends c.unnumbered i = (linkAt size ends c i).unnumbered := by
  rw [linkAt, linkAt]
  cases ends.lookup i <;> rfl

lemma mapM_unnumbered {f f' : Command → Except Failure Command}
    (hf : ∀ c, f' c.unnumbered = (f c).map Command.unnumbered) (cs : List Command) :
    (cs.map Command.unnumbered).mapM f' = (cs.mapM f).map (List.map Command.unnumbered) := by
  induction cs with
  | nil => rfl
  | cons c cs ih =>
    rw [List.map_cons, List.mapM_cons, List.mapM_cons, ih, hf]
    cases f c with
    | error e => rfl
    | ok d => cases cs.mapM f <;> rfl

lemma link_unnumbered (cs : List Command) :
    link (cs.map Command.unnumbered) = (link cs).map (List.map Command.unnumbered) := by
  have hkinds : Program.kinds (cs.map Command.unnumbered) = Program.kinds cs := by
    simp [Program.kinds, Command.unnumbered, Function.comp_def]
  rw [link, link, List.isEmpty_map]
  split
  · rfl
  · rw [mapM_unnumbered (resolve_unnumbered cs), blocks_congr hkinds, List.length_map]
    cases cs.mapM (resolve cs) with
    | error e => rfl
    | ok ds =>
      cases blocks [] 0 cs with
      | error e => rfl
      | ok ends =>
        refine congrArg Except.ok ?_
        simp only [List.zipIdx_map, List.map_map]
        exact List.map_congr_left fun c _ => linkAt_unnumbered _ _ _ _

lemma map_unnumbered_of_program {lines : List Text} {n n' k k' : Nat} {p p' : Program}
    (hp : program lines n = .ok p k) (hp' : program lines n' = .ok p' k') :
    p'.map Command.unnumbered = p.map Command.unnumbered := by
  have hlink : Uncounted (List.map Command.unnumbered) (commands lines >>= fun cs => Reading.lift (link cs))
      (commands lines >>= fun cs => Reading.lift (link cs)) := by
    refine .bind (uncounted_commands lines) fun cs ds hcs => .lift ?_
    rw [← link_unnumbered, ← link_unnumbered, hcs]
  have h := hlink n n'
  rw [program] at hp hp'
  generalize (commands lines >>= fun cs => Reading.lift (link cs)) n = r at h hp
  generalize (commands lines >>= fun cs => Reading.lift (link cs)) n' = r' at h hp'
  cases r with
  | error e k => cases hp
  | ok q k =>
    cases r' with
    | error e k => cases hp'
    | ok q' k' =>
      cases hp
      cases hp'
      exact (Except.ok.inj h).symm

end Script

def Attempt.map {α β : Type} (g : α → β) (a : Attempt α) : Attempt β := ⟨g a.value, a.failure⟩

lemma Attempt.map_andThen {α β α' β' : Type} {g : α → α'} {h : β → β'} {f : α → Attempt β} {f' : α' → Attempt β'}
    {s : α → β} {s' : α' → β'} (hf : ∀ v, f' (g v) = (f v).map h) (hs : ∀ v, s' (g v) = h (s v)) (a : Attempt α) :
    (a.map g).andThen f' s' = (a.andThen f s).map h := by
  rw [andThen, andThen, map]
  cases a.failure with
  | none => exact hf a.value
  | some e => rw [hs]; rfl

section

variable (mode : RegexpMode)

lemma Command.prepare_unnumbered (c : Command) :
    c.unnumbered.prepare mode = (c.prepare mode).map Command.unnumbered := by
  have hfirst (c : Command) : c.unnumbered.prepareFirst mode = (c.prepareFirst mode).map Command.unnumbered := by
    cases ha : c.first <;> simp [prepareFirst, unnumbered, ha, Attempt.done, Attempt.map]
  have hsecond (c : Command) : c.unnumbered.prepareSecond mode = (c.prepareSecond mode).map Command.unnumbered := by
    cases ha : c.second <;> simp [prepareSecond, unnumbered, ha, Attempt.done, Attempt.map]
  have haction (c : Command) : c.unnumbered.prepareAction mode = (c.prepareAction mode).map Command.unnumbered := by
    cases ha : c.action <;> simp [prepareAction, unnumbered, ha, Attempt.done, Attempt.map]
  have hid (c : Command) : id c.unnumbered = (id c).unnumbered := rfl
  rw [prepare, prepare, hfirst, Attempt.map_andThen hsecond hid, Attempt.map_andThen haction hid]

lemma Program.prepare_unnumbered (p : Program) :
    Program.prepare mode (p.map Command.unnumbered) = (p.prepare mode).map (List.map Command.unnumbered) := by
  induction p with
  | nil => rfl
  | cons c cs ih =>
    rw [List.map_cons, prepare, prepare, Command.prepare_unnumbered, ih]
    refine Attempt.map_andThen ?_ ?_ _
    all_goals
      intro c
      rfl

lemma Program.prepared_unnumbered {p p' : Program} (h : p'.map Command.unnumbered = p.map Command.unnumbered) :
    (Program.prepare mode p').value.map Command.unnumbered = (Program.prepare mode p).value.map Command.unnumbered := by
  have hp := congrArg (fun q => (Program.prepare mode q).value) h
  simp only [prepare_unnumbered] at hp
  exact hp

end

lemma Program.asksLast_unnumbered (p : Program) : Program.asksLast (p.map Command.unnumbered) = p.asksLast :=
  List.any_map

end StreamEditor
