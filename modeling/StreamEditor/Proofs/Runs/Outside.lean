import StreamEditor.Proofs.Editor.CycleEnd
import StreamEditor.Proofs.Output.Shown

namespace StreamEditor

open Edit Outcome

structure Outside where
  quiet : Bool
  printed : Array Text
  output : Output
  store : Store

namespace Outside

def print (t : Text) (o : Outside) : Outside × Option Failure :=
  match o.output with
  | .silent | .stream => ({ o with printed := o.printed.push t }, none)
  | .file _ true _ => ({ o with printed := o.printed.push t }, some .outputClosed)
  | .file name false written =>
    match unencodable? t with
    | some (c, start, stop) => ({ o with printed := o.printed.push t }, some (.unencodable c start stop))
    | none =>
      ({ o with
        printed := o.printed.push t, output := .file name false (written ++ Text.toLatin1 (t ++ ['\n'])) }, none)

def autoprint (t : Text) (o : Outside) : Outside × Option Failure := if o.quiet then (o, none) else o.print t

def close (o : Outside) : Outside :=
  match o.output with
  | .file name false written => { o with store := o.store.put name written, output := .file name true written }
  | _ => o

end Outside

abbrev Machine.outside (m : Machine) : Outside := ⟨m.editor.quiet, m.editor.printed, m.editor.output, m.store⟩

def Machine.facing (m : Machine) (o : Outside) : Machine :=
  { m with
    store := o.store, editor := { m.editor with quiet := o.quiet, printed := o.printed, output := o.output } }

def Machine.face (m : Machine) (r : Outside × Option Failure) : EStateM.Result Failure Machine Unit :=
  match r.2 with
  | none => .ok () (m.facing r.1)
  | some e => .error e (m.facing r.1)

def showAuto (t : Text) : Edit Unit := do
  if !(← editor).quiet then print t

section

variable (m : Machine)

lemma print_eq (t : Text) : print t m = m.face (m.outside.print t) := by
  obtain ⟨⟨_, _, _, _, _, output, _, _, _, _, _, _, _⟩, _⟩ := m
  rw [print, bind_ok (show update _ _ = .ok () _ from rfl), bind_ok (show editor _ = .ok _ _ from rfl)]
  cases output with
  | silent | stream => rfl
  | file name closed written =>
    cases closed with
    | true => rfl
    | false =>
      rw [Outside.print]
      dsimp only
      cases unencodable? t <;> rfl

lemma showAuto_eq (t : Text) : showAuto t m = m.face (m.outside.autoprint t) := by
  rw [showAuto, bind_ok (show editor m = .ok m.editor m from rfl), Outside.autoprint]
  by_cases hq : m.editor.quiet
  · rw [if_pos hq, if_neg (by simp [hq])]
    rfl
  · rw [if_neg hq, if_pos (by simp [hq])]
    exact print_eq m t

lemma closeOutput_facing : closeOutput m = .ok () (m.facing m.outside.close) := by
  obtain ⟨⟨_, _, _, _, _, output, _, _, _, _, _, _, _⟩, _⟩ := m
  cases output with
  | silent | stream => rfl
  | file name closed written => cases closed <;> rfl

lemma perform_next {c : Command} (hc : c.action = .next) (i : Nat) :
    c.perform i m = (do showAuto m.space; takeLine) m := by
  rw [Command.perform, hc]
  change ((if !m.editor.quiet then _ else _) : Edit Flow) m = ((if !m.editor.quiet then _ else _) >>= _ : Edit Flow) m
  cases m.editor.quiet <;> rfl

lemma showCycle_auto (last : Command) :
    showCycle last m = (do
      (if last.action = Action.deleteFirst then none else m.editor.pattern).forM showAuto
      flushQueue) m := by
  rw [showCycle, bind_ok (show editor m = .ok m.editor m from rfl)]
  by_cases hd : last.action = .deleteFirst
  · rw [if_pos hd, if_neg (by simp [hd])]
    rfl
  · rw [if_neg hd, decide_eq_true hd, Bool.and_true]
    cases m.editor.pattern with
    | none => cases m.editor.quiet <;> rfl
    | some t =>
      change _ = ((if !m.editor.quiet then print t else pure ()) >>= fun _ => flushQueue : Edit Unit) m
      cases m.editor.quiet <;> rfl

end

def advance (last : Command) : Edit Unit := do
  if last.action ≠ .deleteFirst then setPattern (← readLine)

lemma nextCycle_eq (last : Command) :
    nextCycle last = (do advance last; closeOutput; return (← editor).pattern.isSome) := by
  rw [nextCycle, advance]
  split <;> rfl

lemma advance_eq_ok (last : Command) (m : Machine) :
    ∃ m', advance last m = .ok () m' ∧ m'.outside = m.outside := by
  rw [advance]
  split <;> exact ⟨_, rfl, rfl⟩

lemma within_takeLine : Within Work takeLine :=
  .bind within_readLine fun line => .bind (within_setPattern line) fun _ => .pure _

lemma Move.shown_prefix {i : Nat} {m m' : Machine} (h : Move i m m') : m.shown <+: m'.shown := by
  rcases h with h | h
  · obtain ⟨x, ranges, rfl⟩ := h.exists_eq
    exact List.prefix_rfl
  · cases h with
    | remember h =>
      cases h
      exact List.prefix_rfl
    | display h =>
      cases h with
      | line t => simp [Machine.shown]
      | output o | store s => exact List.prefix_rfl
    | _ => exact List.prefix_rfl

def Grows {α : Type} (x : Edit α) : Prop := ∀ m : Machine, m.shown <+: (final (x m)).shown

lemma grows_pure {α : Type} (a : α) : Grows (pure a) := fun _ => List.prefix_rfl

lemma Within.grows {α : Type} {x : Edit α} (hx : Within Work x) : Grows x := fun m =>
  hx.preserves (P := fun m' => m.shown <+: m'.shown)
    (fun _ _ hr h => h.trans (Move.shown_prefix (i := 0) (.inr hr))) List.prefix_rfl

lemma grows_runFrom (p : Program) (budget i : Nat) : Grows (runFrom p budget i) := fun m =>
  final_runFrom (P := fun m' => m.shown <+: m'.shown) (fun _ _ _ hr h => h.trans hr.shown_prefix) p budget i
    List.prefix_rfl

end StreamEditor
