import StreamEditor.Proofs.Runs.Outside
import StreamEditor.Proofs.Store

namespace StreamEditor

open Edit Outcome

def Action.writes : Action → Bool
  | .write _ => true
  | .substitute s => s.write
  | _ => false

lemma Action.written_eq_nil {a : Action} (h : a.writes = false) : a.written = [] := by
  cases a with
  | write file => cases h
  | substitute s => exact if_neg (by simpa [writes] using h)
  | _ => rfl

def Output.openFile? : Output → Option Text
  | .file name false _ => some name
  | _ => none

lemma Outside.print_keeps (t : Text) (o : Outside) :
    (o.print t).1.store = o.store ∧ (o.print t).1.output.openFile? = o.output.openFile? := by
  rw [print]
  repeat' split
  all_goals simp_all [Output.openFile?]

lemma print_keeps (t : Text) (m : Machine) : (final (print t m)).store = m.store ∧
    (final (print t m)).editor.output.openFile? = m.editor.output.openFile? := by
  have hfinal (r : Outside × Option Failure) : final (m.face r) = m.facing r.1 := by
    rw [Machine.face]
    cases r.2 <;> rfl
  rw [print_eq, hfinal]
  exact m.outside.print_keeps t

lemma keeps_store_print (t : Text) : Keeps Machine.store (print t) := by
  intro m a m' h
  have hstore := (print_keeps t m).1
  rwa [h] at hstore

lemma keeps_store_perform {c : Command} (hc : c.action.writes = false) (i : Nat) :
    Keeps Machine.store (c.perform i) := by
  let S (m m' : Machine) : Prop := m'.store = m.store
  have hprint (t : Text) : Within S (print t) :=
    ⟨fun m => .single (print_keeps t m).1, (within_print t).in_budget⟩
  have hwrite : ∀ path ∈ c.action.written, ∀ t, Within S (writeFile path t) := by
    simp [Action.written_eq_nil hc]
  exact (within_perform_by hprint hwrite i).keeps fun m m' h =>
    (MoveBy.display_or_same (i := i) (.inr h)).elim id And.left

/-- The file holds what it did, and nothing is about to be written into it. -/
structure Spared (name : Text) (contents : Option Bytes) (m : Machine) : Prop where
  held : m.store.lookup name = contents
  output : m.editor.output.openFile? ≠ some name

section

variable {name : Text} {contents : Option Bytes}

abbrev Sparing (name : Text) (contents : Option Bytes) (m m' : Machine) : Prop :=
  Spared name contents m → Spared name contents m'

lemma sparing_print (t : Text) : Within (Sparing name contents) (print t) := by
  refine ⟨fun m => .single fun h => ?_, (within_print t).in_budget⟩
  obtain ⟨hstore, houtput⟩ := print_keeps t m
  exact ⟨hstore ▸ h.held, houtput ▸ h.output⟩

lemma sparing_closeOutput : Within (Sparing name contents) closeOutput := by
  refine ⟨fun m => .single fun h => ?_, within_closeOutput.in_budget⟩
  rw [closeOutput_facing]
  change Spared name contents (m.facing m.outside.close)
  rw [Outside.close]
  split
  · rename_i other written houtput
    have hne : name ≠ other := by
      rintro rfl
      exact h.output (by rw [show m.editor.output = _ from houtput]; rfl)
    exact ⟨(Store.lookup_put_of_ne hne _ _).trans h.held, by simp [Machine.facing, Output.openFile?]⟩
  · exact h

lemma sparing_writeFile {path : Text} (hpath : Store.locate path ≠ .ok name) (line : Text) :
    Within (Sparing name contents) (writeFile path line) := by
  refine ⟨fun m => .single fun h => ?_, (within_writeFile path line).in_budget⟩
  rw [writeFile, bind_ok (show (get : Edit Machine) m = .ok m m from rfl)]
  cases hs : m.store.append path (Text.toUtf8 (line ++ ['\n'])) with
  | error e => exact h
  | ok s => exact ⟨(Store.lookup_append hs hpath).trans h.held, h.output⟩

lemma sparing_openOutput {destination : Destination}
    (hdestination : ∀ path, destination = .file path → Store.locate path ≠ .ok name) :
    Within (Sparing name contents) (openOutput destination) := by
  have hsilent (o : Output) (ho : o.openFile? = none) :
      Within (Sparing name contents) (update fun e => { e with output := o }) :=
    .modify fun m => .single fun h => ⟨h.held, by simp [ho]⟩
  cases destination with
  | nowhere => exact hsilent .silent rfl
  | stream => exact hsilent .stream rfl
  | file path =>
    refine ⟨fun m => .single fun h => ?_, (within_openOutput _).in_budget⟩
    rw [openOutput]
    cases hl : Store.locate path with
    | error e => exact h
    | ok other =>
      have hne : other ≠ name := by
        rintro rfl
        exact hdestination path rfl hl
      exact ⟨(Store.lookup_put_of_ne hne.symm _ _).trans h.held, fun h => hne (Option.some.inj h)⟩

lemma MoveBy.spared {i : Nat} {m m' : Machine} (h : MoveBy (Sparing name contents) i m m')
    (hm : Spared name contents m) : Spared name contents m' := by
  rcases h.display_or_same with h | ⟨hstore, houtput⟩
  · exact h hm
  · exact ⟨hstore ▸ hm.held, houtput ▸ hm.output⟩

lemma Spared.runFrom {p : Program} {m : Machine} (h : Spared name contents m)
    (hwritten : ∀ c ∈ p, ∀ path ∈ c.action.written, Store.locate path ≠ .ok name) (budget i : Nat) :
    Spared name contents (final (runFrom p budget i m)) :=
  final_runFrom_by sparing_print sparing_closeOutput
    (fun c hc path hpath => sparing_writeFile (hwritten c hc path hpath)) (fun _ _ _ hmove => hmove.spared) budget i h

end

end StreamEditor
