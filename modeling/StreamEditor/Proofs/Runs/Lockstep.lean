import Mathlib.Data.List.Forall2
import StreamEditor.Proofs.Output.Laps
import StreamEditor.Proofs.Runs.Agree

namespace StreamEditor

open Edit Outcome

structure Try.Like (R : Machine → Machine → Prop) (t t' : Try) : Prop where
  position : t.position = t'.position
  command : t.command = t'.command
  selected : t.selected = t'.selected
  state : R t.state t'.state
  lines : t.lines = t'.lines
  queued : t.queued = t'.queued

structure Lap.Like (R : Machine → Machine → Prop) (l l' : Lap) : Prop where
  start : R l.start l'.start
  tries : List.Forall₂ (Try.Like R) l.tries l'.tries
  stop : R l.stop l'.stop
  lines : l.lines = l'.lines

section

variable {α β γ : Type} {S : α → β → Prop} {as : List α} {bs : List β}

lemma flatMap_eq_of_forall₂ (h : List.Forall₂ S as bs) {g : α → List γ} {g' : β → List γ}
    (hS : ∀ a b, S a b → g a = g' b) : as.flatMap g = bs.flatMap g' := by
  induction h with
  | nil => rfl
  | cons hab _ ih => rw [List.flatMap_cons, List.flatMap_cons, hS _ _ hab, ih]

lemma getLast?_of_forall₂ (h : List.Forall₂ S as bs) {a : α} (ha : as.getLast? = some a) :
    ∃ b, bs.getLast? = some b ∧ S a b := by
  have hr := List.rel_reverse h
  rw [List.getLast?_eq_head?_reverse] at ha ⊢
  generalize as.reverse = as', bs.reverse = bs' at hr ha ⊢
  cases hr with
  | nil => cases ha
  | cons hab _ =>
    cases ha
    exact ⟨_, rfl, hab⟩

end

def Machine.opened (m : Machine) (r : LineReader) : Machine :=
  { m with editor := { m.editor with
    reader := r.readLine.2, pattern := r.readLine.1.map Text.chomp, substituted := false,
    lineNumber := if r.readLine.1.isSome then 1 else 0, output := .silent, printed := #[] } }

lemma lines_text (t : Text) (s : Store) : (Source.text t).lines s = .ok (Text.records t) := rfl

lemma start_nowhere {p : Program} {source : Source} {m : Machine} {lines : List Text}
    (hs : source.lines m.store = .ok lines) :
    start p source .nowhere m =
      .ok (LineReader.ofLines p.asksLast lines).readLine.1.isSome (m.opened (.ofLines p.asksLast lines)) := by
  rw [start_eq hs, ← Option.isSome_map (f := Text.chomp)]
  rfl

lemma triedIn_of_likes {R : Machine → Machine → Prop} {laps laps' : List Lap}
    (h : List.Forall₂ (Lap.Like R) laps laps') : triedIn laps = triedIn laps' := by
  induction h with
  | nil => rfl
  | cons hl _ ih =>
    rw [triedIn_cons, triedIn_cons, hl.tries.length_eq, ih]

lemma Try.Like.mono {R R' : Machine → Machine → Prop} {t t' : Try} (h : Try.Like R t t')
    (hR : ∀ m n, R m n → R' m n) : Try.Like R' t t' := { h with state := hR _ _ h.state }

lemma Lap.Like.mono {R R' : Machine → Machine → Prop} {l l' : Lap} (h : Lap.Like R l l')
    (hR : ∀ m n, R m n → R' m n) : Lap.Like R' l l' where
  start := hR _ _ h.start
  tries := h.tries.imp fun _ _ ht => ht.mono hR
  stop := hR _ _ h.stop
  lines := h.lines

def Coupling.Clear (k : Coupling) (shown : List Text) : Prop := ∀ e o, o.printed.toList <+: shown → ¬k.stops e o

section

variable {k : Coupling} {p : Program} {i : Nat} {m m' n : Machine}

lemma Coupling.Clear.mono {shown shown' : List Text} (h : k.Clear shown') (hp : shown <+: shown') : k.Clear shown :=
  fun e o ho => h e o (ho.trans hp)

lemma Tracks.of_ok {α : Type} {x y : Edit α} {a : α} (h : Tracks k (x m) (y n)) (hx : x m = .ok a m')
    (hclear : k.Clear m'.shown) : ∃ n', y n = .ok a n' ∧ k.Couples m' n' := by
  rw [hx] at h
  generalize y n = r at h
  cases h with
  | ok _ h => exact ⟨_, rfl, h⟩
  | stopped hshown hs => exact absurd hs (hclear _ _ hshown)

lemma Trying.couples {t : Try} {next : Option Nat} (ht : Trying p i m t next m') (hc : k.Fits t.command)
    (hclear : k.Clear m'.shown) (h : k.Couples m n) :
    ∃ t' n', Trying p i n t' next n' ∧ Try.Like k.Couples t t' ∧ k.Couples m' n' := by
  obtain ⟨rfl, hp, hs, flow, m₁, ha, hr, hf⟩ := ht
  rw [Machine.shown, (kept_of_record hr).1] at hclear
  obtain ⟨n₀, hs', h₀⟩ := (h.selected hc t.position).of_ok hs
  obtain ⟨n₁, ha', h₁⟩ := (h.attempt hc t.position).of_ok ha hclear
  obtain ⟨n', hr', h'⟩ := (h₁.record (fun _ => rfl) t.selected).of_ok hr
  refine ⟨⟨t.position, t.command, t.selected, n₀⟩, n', ⟨rfl, hp, hs', flow, n₁, ha', hr', hf⟩,
    ⟨rfl, rfl, rfl, h₀, ?_, ?_⟩, h'⟩
  · rw [Try.lines, h₀.lines_eq hc]
    rfl
  · rw [Try.queued, h₀.queued_eq hc]
    rfl

variable (hp : ∀ c ∈ p, k.Fits c)
include hp

lemma Pass.couples {ts : List Try} (hpass : Pass p i m ts m') (hclear : k.Clear m'.shown) (h : k.Couples m n) :
    ∃ ts' n', Pass p i n ts' n' ∧ List.Forall₂ (Try.Like k.Couples) ts ts' ∧ k.Couples m' n' := by
  induction hpass generalizing n with
  | last ht =>
    obtain ⟨t', n', ht', hlike, h'⟩ := ht.couples (hp _ (List.mem_of_getElem? ht.command)) hclear h
    exact ⟨[t'], n', .last ht', .cons hlike .nil, h'⟩
  | next ht hrest ih =>
    have hclear₁ := hclear.mono ((hrest.adds rfl).1 ▸ List.prefix_append ..)
    obtain ⟨t', n₁, ht', hlike, h₁⟩ := ht.couples (hp _ (List.mem_of_getElem? ht.command)) hclear₁ h
    obtain ⟨ts', n', hpass', hlikes, h'⟩ := ih hclear h₁
    exact ⟨t' :: ts', n', .next ht' hpass', .cons hlike hlikes, h'⟩

lemma Lap.Of.couples {l : Lap} {more : Bool} (hl : l.Of p more) (hclear : k.Clear l.stop.shown)
    (h : k.Couples l.start n) :
    ∃ (ts : List Try) (stop : Machine) (t : Try), Pass p 0 n ts stop ∧ ts.getLast? = some t ∧
      endCycle t.command t.selected l.stop = .ok more l.finish ∧ k.Couples l.stop stop ∧
      ∀ finish, Lap.Like k.Couples l ⟨n, ts, stop, finish⟩ := by
  obtain ⟨hpass, t, ht, he⟩ := hl
  obtain ⟨ts, stop, hpass', hlikes, hstop⟩ := hpass.couples hp hclear h
  obtain ⟨t', ht', hlike⟩ := getLast?_of_forall₂ hlikes ht
  refine ⟨ts, stop, t', hpass', ht', hlike.command ▸ hlike.selected ▸ he, hstop, fun finish => ⟨h, hlikes, hstop, ?_⟩⟩
  have hlines := flatMap_eq_of_forall₂ hlikes fun _ _ h => h.lines
  have hqueued := flatMap_eq_of_forall₂ hlikes fun _ _ h => h.queued
  simp only [Lap.lines, Lap.leftover, Lap.queued, ht, ht', Option.any_some, hlines, hqueued, hlike.command,
    hstop.pattern, h.queue, Machine.queue]

end

section

variable {f : Frame} {p : Program} {m m' n : Machine} (hp : ∀ c ∈ p, f.Fits c)

lemma Frame.clear_apart (f : Frame) (shown : List Text) : f.apart.Clear shown := fun _ _ _ h => h

include hp

lemma Lap.Of.agree {l : Lap} {more : Bool} (hl : l.Of p more) (h : f.Agree l.start n) :
    ∃ (ts : List Try) (stop : Machine) (t : Try), Pass p 0 n ts stop ∧ ts.getLast? = some t ∧
      endCycle t.command t.selected l.stop = .ok more l.finish ∧ f.Agree l.stop stop ∧
      ∀ finish, Lap.Like f.Agree l ⟨n, ts, stop, finish⟩ := by
  obtain ⟨ts, stop, t, hpass, ht, he, hstop, hlike⟩ :=
    hl.couples (fun c hc => (hp c hc).apart) (f.clear_apart _) h.couples
  exact ⟨ts, stop, t, hpass, ht, he, hstop.agree, fun finish => (hlike finish).mono fun _ _ h => h.agree⟩

lemma Laps.agree (hf : f.shared .input) {laps : List Lap} {more : Bool} (hl : Laps p m laps more m')
    (h : f.Agree m n) :
    ∃ laps' n', Laps p n laps' more n' ∧ List.Forall₂ (Lap.Like f.Agree) laps laps' ∧ f.Agree m' n' := by
  have hend {m n : Machine} (h : f.Agree m n) (t : Try) :
      Alike f.Agree (endCycle t.command t.selected m) (endCycle t.command t.selected n) :=
    (h.couples.endCycle hf f.closes_apart t.command t.selected).agree
  induction hl generalizing n with
  | none m => exact ⟨[], n, .none n, .nil, h⟩
  | last hl =>
    obtain ⟨ts, stop, t, hpass, ht, he, hstop, hlike⟩ := hl.agree hp h
    obtain ⟨finish, he', hfinish⟩ := (hend hstop t).of_ok he
    exact ⟨[⟨n, ts, stop, finish⟩], finish,
      .last (l := ⟨n, ts, stop, finish⟩) ⟨hpass, t, ht, he'⟩, .cons (hlike finish) .nil, hfinish⟩
  | next hl _ ih =>
    obtain ⟨ts, stop, t, hpass, ht, he, hstop, hlike⟩ := hl.agree hp h
    obtain ⟨finish, he', hfinish⟩ := (hend hstop t).of_ok he
    obtain ⟨laps', n', hlaps, hlikes, h'⟩ := ih hfinish
    exact ⟨⟨n, ts, stop, finish⟩ :: laps', n',
      .next (l := ⟨n, ts, stop, finish⟩) ⟨hpass, t, ht, he'⟩ hlaps, .cons (hlike finish) hlikes, h'⟩

lemma RunsOver.agree (hf : f.shared .input) {source source' : Source} {destination destination' : Destination}
    (hs : Alike f.Agree (start p source destination m) (start p source' destination' n)) {laps : List Lap} {more : Bool}
    (h : RunsOver p source destination m laps more m') :
    ∃ laps' n', RunsOver p source' destination' n laps' more n' ∧ List.Forall₂ (Lap.Like f.Agree) laps laps' ∧
      f.Agree m' n' := by
  cases h with
  | empty hm =>
    obtain ⟨n', hn, h'⟩ := hs.of_ok hm
    exact ⟨[], n', .empty hn, .nil, h'⟩
  | laps hm hl =>
    obtain ⟨n₁, hn, h₁⟩ := hs.of_ok hm
    obtain ⟨laps', n', hl', hlikes, h'⟩ := hl.agree hp hf h₁
    exact ⟨laps', n', .laps hn hl', hlikes, h'⟩

end

end StreamEditor
