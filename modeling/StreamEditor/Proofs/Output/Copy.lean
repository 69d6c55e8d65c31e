import StreamEditor.Proofs.Output.Written
import StreamEditor.Proofs.Runs.LineLocal
import StreamEditor.Proofs.Text.Encoding

namespace StreamEditor

open Edit Outcome

def copyName : Text := ['c', 'o', 'p', 'y']

def copyScript : Text := 'w' :: ' ' :: copyName

def copyCommand (n : Nat) : Command := ⟨n, none, none, false, .write copyName, none, none⟩

lemma program_copyScript (n : Nat) :
    Script.program (Script.pack (Text.splitLines copyScript)) n = .ok [copyCommand n] (n + 1) := by
  have hcommand : Script.command copyScript n = .ok (6, some (copyCommand n)) (n + 1) := rfl
  have hline : Script.lineCommands copyScript n = .ok [copyCommand n] (n + 1) := by
    rw [copyScript, Script.lineCommands]
    refine (bind_ok hcommand).trans ?_
    change (do
      let more ← Script.lineCommands []
      pure ([copyCommand n] ++ more) : Script.Reading (List Command)) (n + 1) = _
    rw [Script.lineCommands]
    rfl
  have hcommands : Script.commands [copyScript] n = .ok [copyCommand n] (n + 1) := by
    rw [Script.commands, bind_ok hline]
    rfl
  have hlink : Script.link [copyCommand n] = .ok [copyCommand n] := rfl
  rw [show Script.pack (Text.splitLines copyScript) = [copyScript] by decide, Script.program, bind_ok hcommands, hlink]
  rfl

lemma loadText_copyScript (m : Machine) :
    ∃ m₁, loadText copyScript m = .ok () m₁ ∧ m₁.editor.program = some [copyCommand m.nextNumber] ∧
      m₁.store = m.store.put copyName [] := by
  rw [loadText, loadLines_eq, install, bind_ok (readProgram_eq (program_copyScript _))]
  exact ⟨_, rfl, rfl, rfl⟩

lemma utf8Lines_chomp (lines : List Text) :
    utf8Lines (lines.map Text.chomp) = Text.toUtf8 (lines.flatMap fun line => Text.chomp line ++ ['\n']) := by
  simp [utf8Lines, Text.toUtf8, List.flatMap_map, List.flatMap_assoc]

structure Copying (lines : List Text) (m : Machine) : Prop where
  pattern : m.editor.pattern = lines.head?.map Text.chomp
  reader : m.editor.reader = .plain lines.tail
  output : m.editor.output.isFile = false

section

variable {lines : List Text} {line : Text} {m : Machine} {n : Nat}

lemma Copying.turn (h : Copying (line :: lines) m) :
    ∃ m', turn [copyCommand n] 0 m = .ok (if lines.isEmpty then none else some 0) m' ∧ Copying lines m' ∧
      m'.store = m.store.put copyName
        ((m.store.lookup copyName).getD [] ++ Text.toUtf8 (Text.chomp line ++ ['\n'])) := by
  have hspace : m.space = Text.chomp line := by
    rw [Machine.space, h.pattern]
    rfl
  obtain ⟨m₁, hattempt, heditor₁, hstore₁⟩ : ∃ m₁, (copyCommand n).attempt 0 m = .ok (true, .onward) m₁ ∧
      m₁.editor = m.editor ∧ m₁.store = m.store.put copyName
        ((m.store.lookup copyName).getD [] ++ Text.toUtf8 (m.space ++ ['\n'])) := ⟨_, rfl, rfl, rfl⟩
  obtain ⟨m₂, hrecord⟩ : ∃ m₂, record (copyCommand n) true m₁ = .ok () m₂ := ⟨_, rfl⟩
  obtain ⟨heditor₂, hstore₂⟩ := kept_of_record hrecord
  have heditor := heditor₂.trans heditor₁
  have houtput : m₂.editor.output.isFile = false := by
    rw [heditor]
    exact h.output
  obtain ⟨printed, hend⟩ := endCycle_eq (c := copyCommand n) (by simp [copyCommand]) (by simp [copyCommand]) true houtput
  have hread : m₂.editor.reader.readLine = (lines.head?, .plain lines.tail) := by
    rw [heditor, h.reader]
    rfl
  refine ⟨m₂.nextLine printed, ?_, ⟨?_, ?_, houtput⟩, ?_⟩
  · rw [turn_eq (c := copyCommand n) rfl hattempt hrecord]
    refine (bind_ok hend).trans ?_
    rw [hread]
    cases lines <;> rfl
  · rw [Machine.nextLine, hread]
  · rw [Machine.nextLine, hread]
  · rw [← hspace]
    exact hstore₂.trans hstore₁

lemma Copying.runFrom (h : Copying (line :: lines) m) {budget : Nat} (hb : lines.length < budget) :
    ∃ m', runFrom [copyCommand n] budget 0 m = .ok () m' ∧
      m'.store.lookup copyName =
        some ((m.store.lookup copyName).getD [] ++ utf8Lines ((line :: lines).map Text.chomp)) ∧
      m.store.SameBut copyName m'.store := by
  induction lines generalizing line m budget with
  | nil =>
    obtain ⟨budget, rfl⟩ := Nat.exists_eq_add_of_lt hb
    obtain ⟨m₁, hturn, -, hstore⟩ := h.turn (n := n)
    refine ⟨m₁, bind_ok hturn, ?_, ?_⟩
    · rw [hstore, Store.lookup_put_self]
      simp [utf8Lines]
    · rw [hstore]
      exact fun other hne => (Store.lookup_put_of_ne hne _ _).symm
  | cons next lines ih =>
    obtain ⟨budget, rfl⟩ := Nat.exists_eq_add_of_lt hb
    obtain ⟨m₁, hturn, h₁, hstore⟩ := h.turn (n := n)
    have hb₁ : lines.length < (next :: lines).length + budget := Nat.lt_add_right _ (Nat.lt_succ_self _)
    obtain ⟨m₂, hrun, hheld, hsame⟩ := ih h₁ hb₁
    refine ⟨m₂, (bind_ok hturn).trans hrun, ?_, fun other hne => ?_⟩
    · rw [hheld, hstore, Store.lookup_put_self]
      simp [utf8Lines]
    · rw [← hsame other hne, hstore, Store.lookup_put_of_ne hne]

lemma copying_start {path : Text} {bytes : Bytes} {destination : Destination} (hread : m.store.read path = .ok bytes)
    (hd : ∀ name, destination ≠ .file name) (hcr : 13 ∉ bytes) :
    ∃ m', start [copyCommand n] (.file path) destination m =
        .ok (Text.records (Text.ofLatin1 bytes)).head?.isSome m' ∧
      Copying (Text.records (Text.ofLatin1 bytes)) m' ∧ m'.store = m.store := by
  have hs : (Source.file path).lines m.store = .ok (Text.records (Text.ofLatin1 bytes)) := by
    rw [Source.lines, hread]
    dsimp only
    rw [Text.normalizeNewlines_eq_self (Text.notMem_ofLatin1 hcr)]
  rw [start_eq hs, ← Option.isSome_map (f := Text.chomp)]
  cases destination with
  | nowhere | stream => exact ⟨_, rfl, ⟨rfl, rfl, rfl⟩, rfl⟩
  | file name => exact absurd rfl (hd name)

end

/-- The script `w copy` can be loaded, and applied to a file with no carriage return that is empty or ends in a line feed
it returns and leaves in `copy` the bytes of the file, each read as Latin-1 and written as UTF-8. They are the bytes of
the file exactly if all of these are ASCII. -/
theorem copy_recodes_file {m : Machine} {path : Text} {bytes : Bytes} (hread : m.store.read path = .ok bytes)
    (hpath : Store.locate path ≠ .ok copyName) (hcr : 13 ∉ bytes) (hlf : bytes = [] ∨ bytes.getLast? = some 10)
    {destination : Destination} (hd : ∀ name, destination ≠ .file name) :
    ∃ m₁, loadText copyScript m = .ok () m₁ ∧ ∀ budget, bytes.count 10 ≤ budget →
      ∃ m₂, apply budget (.file path) destination m₁ = .ok () m₂ ∧
        m₂.store.lookup copyName = some (bytes.flatMap Text.recoded) ∧ m.store.SameBut copyName m₂.store ∧
        (m₂.store.lookup copyName = some bytes ↔ ∀ b ∈ bytes, b < 128) := by
  obtain ⟨m₁, hload, hprogram, hstore⟩ := loadText_copyScript m
  refine ⟨m₁, hload, fun budget hb => ?_⟩
  have hsame₁ : m.store.SameBut copyName m₁.store := by
    rw [hstore]
    exact fun other hne => (Store.lookup_put_of_ne hne _ _).symm
  have hempty : m₁.store.lookup copyName = some [] := hstore ▸ Store.lookup_put_self _ _ _
  obtain ⟨m₂, hstart, hcopying, hstore₂⟩ :=
    copying_start (n := m.nextNumber) ((hsame₁.read_eq hpath).symm.trans hread) hd hcr
  rw [← hstore₂] at hsame₁ hempty
  rw [← Text.count_ofLatin1, ← Text.length_records (Text.getLast?_ofLatin1 hlf)] at hb
  obtain ⟨m₃, hrun, hheld, hsame⟩ : ∃ m₃, apply budget (.file path) destination m₁ = .ok () m₃ ∧
      m₃.store.lookup copyName = some (utf8Lines ((Text.records (Text.ofLatin1 bytes)).map Text.chomp)) ∧
      m.store.SameBut copyName m₃.store := by
    rw [apply_eq hprogram, bind_ok hstart]
    cases hlines : Text.records (Text.ofLatin1 bytes) with
    | nil => exact ⟨m₂, rfl, hempty, hsame₁⟩
    | cons line lines =>
      rw [hlines] at hcopying hb
      obtain ⟨m₃, hrun, hheld, hsame⟩ := hcopying.runFrom hb
      rw [hempty] at hheld
      exact ⟨m₃, hrun, hheld, fun other hne => (hsame₁ other hne).trans (hsame other hne)⟩
  rw [utf8Lines_chomp, Text.flatMap_chomp_records (Text.notMem_ofLatin1 hcr) (Text.getLast?_ofLatin1 hlf),
    Text.toUtf8_ofLatin1] at hheld
  refine ⟨m₃, hrun, hheld, hsame, ?_⟩
  rw [hheld, Option.some_inj, Text.flatMap_recoded_eq_iff]

def sampleAscii : Machine := ⟨{}, [(['i', 'n'], [97, 10])], 1, false, #[], 0⟩

theorem copy_of_sampleAscii_is_same :
    ∃ m₁ m₂, sampleAscii.store.read ['i', 'n'] = .ok [97, 10] ∧ loadText copyScript sampleAscii = .ok () m₁ ∧
      apply 1 (.file ['i', 'n']) .nowhere m₁ = .ok () m₂ ∧ m₂.store.lookup copyName = some [97, 10] := by
  have hread : sampleAscii.store.read ['i', 'n'] = .ok [97, 10] := rfl
  have hd : ∀ name, Destination.nowhere ≠ .file name := nofun
  obtain ⟨m₁, hload, hrun⟩ := copy_recodes_file hread nofun (by decide) (by decide) hd
  obtain ⟨m₂, happly, -, -, hiff⟩ := hrun 1 (by decide)
  exact ⟨m₁, m₂, rfl, hload, happly, hiff.2 (by simp)⟩

def sampleLatin1 : Machine := ⟨{}, [(['i', 'n'], [0xe9, 10])], 1, false, #[], 0⟩

theorem copy_of_sampleLatin1_differs :
    ∃ m₁ m₂, sampleLatin1.store.read ['i', 'n'] = .ok [0xe9, 10] ∧ loadText copyScript sampleLatin1 = .ok () m₁ ∧
      apply 1 (.file ['i', 'n']) .nowhere m₁ = .ok () m₂ ∧ m₂.store.lookup copyName = some [0xc3, 0xa9, 10] := by
  obtain ⟨m₁, hload⟩ : ∃ m₁, loadText copyScript sampleLatin1 = .ok () m₁ := Outcome.of_result? (by decide +kernel)
  let run := apply 1 (.file ['i', 'n']) .nowhere (final (loadText copyScript sampleLatin1))
  obtain ⟨m₂, hrun⟩ : ∃ m₂, run = .ok () m₂ := Outcome.of_result? (by decide +kernel)
  have hheld : (final run).store.lookup copyName = some [0xc3, 0xa9, 10] := by decide +kernel
  rw [hrun] at hheld
  simp only [run, hload, final] at hrun
  exact ⟨m₁, m₂, rfl, hload, hrun, hheld⟩

end StreamEditor
