import StreamEditor.Proofs.Runs.Coupling

/-! Machines that show different lines. They agree if they differ only in what has been shown, in whether they are
quiet, and in parts that are not shared; a run that uses only shared parts comes to the same in both. -/

namespace StreamEditor

open Edit Outcome

def Output.isFile : Output → Bool
  | .file .. => true
  | _ => false

def Machine.settings (m : Machine) : Output × Option Program × Bool × Bool × Nat × Nat :=
  (m.editor.output, m.editor.program, m.editor.extended, m.deferred, m.nextNumber, m.trialLimit)

structure Frame.Agree (f : Frame) (m n : Machine) : Prop where
  pattern : m.editor.pattern = n.editor.pattern
  substituted : m.editor.substituted = n.editor.substituted
  queue : m.editor.queue = n.editor.queue
  store : m.store = n.store
  -- what is shown differs, so it must not reach a file
  output : m.editor.output.isFile = false ∧ n.editor.output.isFile = false
  reader : f.reader m.editor.reader n.editor.reader
  hold : f.shared .hold → m.editor.hold = n.editor.hold
  lineNumber : f.shared .lineNumber → m.editor.lineNumber = n.editor.lineNumber
  lastRegexp : f.shared .lastRegexp → m.editor.lastRegexp = n.editor.lastRegexp
  ranges : f.shared .ranges → m.editor.ranges = n.editor.ranges
  trials : f.shared .trials → m.trials = n.trials
  settings : f.shared .settings → m.settings = n.settings

def Prints (x : Edit Unit) : Prop :=
  ∀ m : Machine, m.editor.output.isFile = false →
    ∃ printed, x m = .ok () { m with editor := { m.editor with printed } }

section

variable {o o' : Outside} (ho : o.output.isFile = false)
include ho

lemma Outside.print_of_isFile (t : Text) : o.print t = ({ o with printed := o.printed.push t }, none) := by
  rw [Outside.print]
  cases h : o.output with
  | silent | stream => rfl
  | file name closed written =>
    rw [h] at ho
    cases ho

lemma Outside.autoprint_of_isFile (t : Text) : ∃ printed, o.autoprint t = ({ o with printed }, none) := by
  rw [Outside.autoprint]
  split
  · exact ⟨o.printed, rfl⟩
  · exact ⟨_, o.print_of_isFile ho t⟩

lemma Outside.close_of_isFile : o.close = o := by
  rw [Outside.close]
  cases h : o.output with
  | silent | stream => rfl
  | file name closed written =>
    rw [h] at ho
    cases ho

end

lemma prints_print (t : Text) : Prints (print t) := by
  intro m h
  rw [print_eq, Outside.print_of_isFile h]
  exact ⟨_, rfl⟩

lemma prints_forM (ts : List Text) : Prints (ts.forM print) := by
  induction ts with
  | nil => exact fun m _ => ⟨m.editor.printed, rfl⟩
  | cons t ts ih =>
    intro m h
    obtain ⟨printed, ht⟩ := prints_print t m h
    obtain ⟨printed', hts⟩ := ih { m with editor := { m.editor with printed } } h
    exact ⟨printed', (bind_ok ht).trans hts⟩

lemma showCycle_eq (last : Command) (m : Machine) : ∃ x, Prints x ∧ showCycle last m = (do x; clearQueue) m := by
  by_cases hd : last.action = .deleteFirst
  · exact ⟨_, prints_forM _, showCycle_deleteFirst m hd⟩
  · exact ⟨_, prints_forM _, showCycle_of_ne m hd⟩

lemma closeOutput_eq {m : Machine} (h : m.editor.output.isFile = false) : closeOutput m = .ok () m := by
  rw [closeOutput_facing, Outside.close_of_isFile h]
  rfl

def Frame.apart (f : Frame) : Coupling where
  toFrame := f
  outside o o' := o.store = o'.store ∧ (o.output.isFile = false ∧ o'.output.isFile = false) ∧
    (f.shared .settings → o.output = o'.output)
  stops _ _ := False
  file _ := True
  print := by
    rintro o o' ⟨hstore, ⟨ho, ho'⟩, hset⟩ t
    rw [o.print_of_isFile ho, o'.print_of_isFile ho']
    exact .same none ⟨hstore, ⟨ho, ho'⟩, hset⟩
  autoprint := by
    rintro o o' ⟨hstore, ⟨ho, ho'⟩, hset⟩ t
    obtain ⟨ps, hps⟩ := o.autoprint_of_isFile ho t
    obtain ⟨ps', hps'⟩ := o'.autoprint_of_isFile ho' t
    rw [hps, hps']
    exact .same none ⟨hstore, ⟨ho, ho'⟩, hset⟩
  read := by
    rintro o o' ⟨hstore, -⟩ path -
    rw [hstore]
  write := by
    rintro o o' ⟨hstore, hout⟩ path - bytes s s' hs hs'
    rw [hstore, hs'] at hs
    cases hs
    exact ⟨rfl, hout⟩

section

variable {f : Frame} {m n : Machine}

lemma Frame.Agree.couples (h : f.Agree m n) : f.apart.Couples m n :=
  { h with
    outside := ⟨h.store, h.output, fun hs => congrArg (·.1) (h.settings hs)⟩
    fixed := fun hs => congrArg (·.2) (h.settings hs) }

lemma Coupling.Couples.agree (h : f.apart.Couples m n) : f.Agree m n :=
  { h with
    store := h.outside.1
    output := h.outside.2.1
    settings := fun hs => Prod.ext (h.outside.2.2 hs) (h.fixed hs) }

lemma Frame.Fits.apart {c : Command} (hc : f.Fits c) : f.apart.Fits c := ⟨hc, fun _ _ => trivial⟩

lemma Frame.closes_apart (f : Frame) : f.apart.Closes := by
  rintro o o' ⟨hstore, ⟨ho, ho'⟩, hset⟩
  rw [o.close_of_isFile ho, o'.close_of_isFile ho']
  exact ⟨hstore, ⟨ho, ho'⟩, hset⟩

lemma Tracks.agree {α : Type} {r r' : EStateM.Result Failure Machine α} (h : Tracks f.apart r r') :
    Alike f.Agree r r' :=
  (h.alike fun _ _ h => h).mono fun _ _ h => h.agree

lemma Frame.Agree.runFrom (hf : f.shared .input) (h : f.Agree m n) {p : Program} (hp : ∀ c ∈ p, f.Fits c)
    (budget i : Nat) : Alike f.Agree (runFrom p budget i m) (runFrom p budget i n) :=
  (h.couples.runFrom hf f.closes_apart (fun c hc => (hp c hc).apart) (Coupling.matches_refl _ p) budget i).agree

end

end StreamEditor
