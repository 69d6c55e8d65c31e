import Mathlib.Tactic.Lemma
import StreamEditor.Proofs.Dialect.Replacement
import StreamEditor.Proofs.Outcome
import StreamEditor.Script.Prepare

namespace StreamEditor

namespace Dialect

def references : Text → List Nat
  | [] => []
  | '\\' :: c :: rest => if Text.isAsciiDigit c then Text.digitValue c :: references rest else references rest
  | _ :: rest => references rest

lemma references_char {c : Char} (hc : c ≠ '\\') (rest : Text) : references (c :: rest) = references rest := by
  rw [references]
  simp [hc]

lemma fits_cons (groups : Nat) (p : Piece) (ps : Template) :
    Template.fits groups (p :: ps) = (Template.fits groups [p] && Template.fits groups ps) := by
  simp [Template.fits]

lemma fits_referencePiece {groups : Nat} {d : Char} (hd : Text.digitValue d ≤ groups) (rest : Text) :
    Template.fits groups [referencePiece d rest] = true := by
  rw [referencePiece]
  split
  · rfl
  · simp [Template.fits, hd]

lemma fits_pieces {groups : Nat} {t : Text} (h : ∀ k ∈ references t, k ≤ groups) :
    (pieces t).fits groups = true := by
  fun_induction pieces t with
  | case1 | case4 => rfl
  | case2 rest ih =>
    have hn : Text.isAsciiDigit 'n' = false := by decide
    rw [fits_cons, ih (by simpa [references, hn] using h)]
    rfl
  | case3 d rest hn ih =>
    rw [references] at h
    by_cases hd : Text.isAsciiDigit d = true
    · rw [if_pos hd, List.forall_mem_cons] at h
      rw [if_pos hd, fits_cons, fits_referencePiece h.1, ih h.2]
      rfl
    · rw [if_neg hd] at h
      rw [if_neg hd, fits_cons, ih h]
      rfl
  | case5 rest ih =>
    rw [references_char (by decide)] at h
    rw [fits_cons, ih h]
    simp [Template.fits]
  | case6 c rest _ hd hl _ ih =>
    rw [references_char (ne_backslash_of_unmatched hl hd)] at h
    rw [fits_cons, ih h]
    rfl

end Dialect

def Address.isEmpty : Address → Bool
  | .regexp source _ _ => source.isEmpty
  | _ => false

structure Substitution.Safe (extended : Bool) (s : Substitution) : Prop where
  named : s.pattern ≠ some []
  unwritten : s.write = false
  count_lt : s.count < Nat.pow 2 63
  references_le {source : Text} {x : Regexp} {r : Regex} : s.pattern = some source →
    Regexp.ofScript false extended s.ignoreCase source = .ok (some x) → x.compiled = some r →
    ∀ k ∈ Dialect.references s.replacement, k ≤ r.groups

def Action.Safe (extended : Bool) : Action → Prop
  | .write _ => False
  | .substitute s => s.Safe extended
  | _ => True

structure Command.Safe (extended : Bool) (c : Command) : Prop where
  first : ∀ a ∈ c.first, a.isEmpty = false
  second : ∀ a ∈ c.second, a.isEmpty = false
  action : c.action.Safe extended

def Address.ready : Address → Bool
  | .regexp _ _ prepared => prepared.any (·.compiled.isSome)
  | _ => true

def Substitution.ready (s : Substitution) : Bool :=
  match s.target with
  | .own ⟨_, _, some r⟩ =>
    !s.write && s.count < Regexp.countLimit && (Template.parse s.replacement).any (·.fits r.groups)
  | _ => false

def Action.ready : Action → Bool
  | .write _ => false
  | .substitute s => s.ready
  | .transliterate y => y.table.isSome
  | _ => true

def Command.ready (c : Command) : Bool :=
  c.first.all Address.ready && c.second.all Address.ready && c.action.ready

lemma ofScript_compiled {extended ignoreCase : Bool} {source : Text} {x : Option Regexp} (hs : source ≠ [])
    (h : Regexp.ofScript false extended ignoreCase source = .ok x) : ∃ y r, x = some y ∧ y.compiled = some r := by
  have he : source.isEmpty = false := by simpa using hs
  simp only [Regexp.ofScript, he, if_false, Bool.false_eq_true] at h
  obtain ⟨pattern, -, h⟩ := bind_eq_ok.1 h
  split at h
  · cases h
  · rename_i r _
    cases h
    exact ⟨_, r, rfl, rfl⟩

lemma Attempt.of_andThen {α β : Type} {a : Attempt α} {f : α → Attempt β} {stopped : α → β}
    (h : (a.andThen f stopped).failure = none) :
    a.failure = none ∧ (f a.value).failure = none ∧ a.andThen f stopped = f a.value := by
  rw [andThen] at h ⊢
  split at h
  · exact ⟨‹_›, h, by simp [*]⟩
  · cases h

namespace Command

variable {mode : RegexpMode} {c : Command}

lemma of_prepareFirst (h : (c.prepareFirst mode).failure = none) :
    (∀ a ∈ c.first, (a.prepare mode).failure = none) ∧
      (c.prepareFirst mode).value = { c with first := c.first.map fun a => (a.prepare mode).value } := by
  obtain ⟨number, first, second, negated, action, next, branch⟩ := c
  cases first with
  | none => simp [prepareFirst, Attempt.done]
  | some a => simpa [prepareFirst] using h

lemma of_prepareSecond (h : (c.prepareSecond mode).failure = none) :
    (∀ a ∈ c.second, (a.prepare mode).failure = none) ∧
      (c.prepareSecond mode).value = { c with second := c.second.map fun a => (a.prepare mode).value } := by
  obtain ⟨number, first, second, negated, action, next, branch⟩ := c
  cases second with
  | none => simp [prepareSecond, Attempt.done]
  | some a => simpa [prepareSecond] using h

lemma of_prepare (h : (c.prepare mode).failure = none) :
    (∀ a ∈ c.first, (a.prepare mode).failure = none) ∧ (∀ a ∈ c.second, (a.prepare mode).failure = none) ∧
      (c.prepareAction mode).failure = none ∧
      (c.prepare mode).value = { c with
        first := c.first.map fun a => (a.prepare mode).value
        second := c.second.map fun a => (a.prepare mode).value
        action := (c.prepareAction mode).value.action } := by
  obtain ⟨h₂, h₃, he⟩ := Attempt.of_andThen h
  obtain ⟨h₁, h₂, he₂⟩ := Attempt.of_andThen h₂
  rw [he₂] at h₃ he
  obtain ⟨hfirst, hc₁⟩ := of_prepareFirst h₁
  obtain ⟨hsecond, hc₂⟩ := of_prepareSecond h₂
  rw [hc₁] at hsecond hc₂
  have haction (first second : Option Address) :
      (c.prepareAction mode).failure = (prepareAction mode { c with first, second }).failure ∧
        (prepareAction mode { c with first, second }).value =
          { c with first, second, action := (c.prepareAction mode).value.action } := by
    obtain ⟨_, _, _, _, action, _, _⟩ := c
    cases action <;> exact ⟨rfl, rfl⟩
  rw [prepare, he₂, he, hc₁, hc₂]
  rw [hc₁, hc₂] at h₃
  exact ⟨hfirst, hsecond, (haction _ _).1.trans h₃, (haction _ _).2⟩

lemma exists_prepareFirst (h : ∀ x ∈ c.first, (x.prepare mode).failure = none) :
    ∃ first, c.prepareFirst mode = .done { c with first } := by
  obtain ⟨number, first, second, negated, action, next, branch⟩ := c
  cases first with
  | none => exact ⟨none, rfl⟩
  | some x => exact ⟨some (x.prepare mode).value, congrArg (Attempt.mk _) (h x rfl)⟩

lemma exists_prepareSecond (h : ∀ x ∈ c.second, (x.prepare mode).failure = none) :
    ∃ second, c.prepareSecond mode = .done { c with second } := by
  obtain ⟨number, first, second, negated, action, next, branch⟩ := c
  cases second with
  | none => exact ⟨none, rfl⟩
  | some x => exact ⟨some (x.prepare mode).value, congrArg (Attempt.mk _) (h x rfl)⟩

lemma exists_prepare (hfirst : ∀ x ∈ c.first, (x.prepare mode).failure = none)
    (hsecond : ∀ x ∈ c.second, (x.prepare mode).failure = none) :
    ∃ first second, c.prepare mode = prepareAction mode { c with first, second } := by
  obtain ⟨first, hfirst⟩ := exists_prepareFirst hfirst
  obtain ⟨second, hsecond⟩ := exists_prepareSecond (c := { c with first }) hsecond
  refine ⟨first, second, ?_⟩
  have haddresses : (c.prepareFirst mode).andThen (prepareSecond mode) id = .done { c with first, second } := by
    rw [hfirst]
    exact hsecond
  rw [prepare, haddresses]
  rfl

end Command

section

variable {mode : RegexpMode} (hm : mode.deferred = false)
include hm

lemma Address.ready_prepare {a : Address} (ha : a.isEmpty = false) (h : (a.prepare mode).failure = none) :
    (a.prepare mode).value.ready = true := by
  cases a with
  | line n => rfl
  | last => rfl
  | regexp source ignoreCase prepared =>
    rw [isEmpty] at ha
    cases hx : Regexp.ofScript mode.deferred mode.extended ignoreCase source with
    | error e => simp [prepare, hx] at h
    | ok x =>
      rw [hm] at hx
      obtain ⟨y, r, rfl, hr⟩ := ofScript_compiled (by simpa using ha) hx
      simp [prepare, hm, hx, Attempt.done, ready, hr]

lemma Substitution.ready_prepare {s : Substitution} (hs : s.Safe mode.extended)
    (h : (s.prepare mode).failure = none) : (s.prepare mode).value.ready = true := by
  cases hp : s.pattern with
  | none => simp [prepare, hp] at h
  | some source =>
    have hne : source ≠ [] := by
      rintro rfl
      exact hs.named hp
    cases hx : Regexp.ofScript mode.deferred mode.extended s.ignoreCase source with
    | error e => simp [prepare, hp, hx] at h
    | ok x =>
      rw [hm] at hx
      obtain ⟨⟨pattern, ignoreCase, compiled⟩, r, rfl, hr⟩ := ofScript_compiled hne hx
      obtain rfl : compiled = some r := hr
      have hf := Dialect.fits_pieces (hs.references_le hp hx rfl)
      have hc : s.count < Regexp.countLimit := hs.count_lt
      simp [prepare, hp, hm, hx, Attempt.done, ready, hs.unwritten, hc, Dialect.parse_convertReplacement, hf]

omit hm in
lemma Transliteration.isSome_prepare {y : Transliteration} (h : y.prepare.failure = none) :
    y.prepare.value.table.isSome = true := by
  cases hs : Dialect.unescape y.source with
  | error e => simp [prepare, hs] at h
  | ok source =>
    cases hd : Dialect.unescape y.dest with
    | error e => simp [prepare, hs, hd] at h
    | ok dest =>
      cases ht : CharTable.ofTexts? source dest with
      | none => simp [prepare, hs, hd, ht] at h
      | some table => simp [prepare, hs, hd, ht, Attempt.done]

namespace Command

variable {c : Command}

lemma ready_prepareAction (hc : c.action.Safe mode.extended) (h : (c.prepareAction mode).failure = none) :
    (c.prepareAction mode).value.action.ready = true := by
  cases ha : c.action with
  | substitute s =>
    rw [ha] at hc
    simp only [prepareAction, ha] at h ⊢
    exact Substitution.ready_prepare hm hc h
  | transliterate y =>
    simp only [prepareAction, ha] at h ⊢
    exact Transliteration.isSome_prepare h
  | write file =>
    rw [ha] at hc
    exact hc.elim
  | _ => simp [prepareAction, ha, Attempt.done, Action.ready]

lemma ready_prepare (hc : c.Safe mode.extended) (h : (c.prepare mode).failure = none) :
    (c.prepare mode).value.ready = true := by
  have haddress {o : Option Address} (ho : ∀ a ∈ o, a.isEmpty = false)
      (h : ∀ a ∈ o, (a.prepare mode).failure = none) :
      (o.map fun a => (a.prepare mode).value).all Address.ready = true := by
    cases o with
    | none => rfl
    | some a => exact Address.ready_prepare hm (ho a rfl) (h a rfl)
  obtain ⟨hfirst, hsecond, haction, he⟩ := of_prepare h
  rw [he, ready, haddress hc.first hfirst, haddress hc.second hsecond, ready_prepareAction hm hc.action haction]
  rfl

end Command

omit hm in
lemma Program.forall_prepare {P Q : Command → Prop}
    (hPQ : ∀ c, P c → (c.prepare mode).failure = none → Q (c.prepare mode).value) {p : Program} (hp : ∀ c ∈ p, P c)
    (h : (p.prepare mode).failure = none) : ∀ c ∈ (p.prepare mode).value, Q c := by
  induction p with
  | nil => simp [Program.prepare, Attempt.done]
  | cons c cs ih =>
    obtain ⟨hc, hcs⟩ := List.forall_mem_cons.1 hp
    obtain ⟨h₁, h₂, he⟩ := Attempt.of_andThen h
    rw [Program.prepare, he]
    exact List.forall_mem_cons.2 ⟨hPQ c hc h₁, ih hcs h₂⟩

lemma Program.ready_prepare {p : Program} (hp : ∀ c ∈ p, c.Safe mode.extended)
    (h : (p.prepare mode).failure = none) : ∀ c ∈ (p.prepare mode).value, c.ready = true :=
  forall_prepare (fun _ => Command.ready_prepare hm) hp h

end

end StreamEditor
