import Mathlib.Tactic.Lemma
import StreamEditor.Regex.Search

namespace StreamEditor

namespace Spot

def Proper (s : Spot) : Prop := ∀ n c, s.captured? n = some c → c.length ≤ c.tail.length

structure Reaches (s t : Spot) : Prop where
  proper : t.Proper
  further : ∃ n ≤ s.rest.length, t.pos = s.pos + n ∧ t.rest = s.rest.drop n

lemma proper_nil (pos : Nat) (rest : Text) : (Spot.mk pos rest []).Proper := by
  intro n c h
  cases h

lemma Reaches.refl {s : Spot} (hs : s.Proper) : s.Reaches s := ⟨hs, 0, Nat.zero_le _, rfl, rfl⟩

lemma Reaches.trans {s t u : Spot} (hst : s.Reaches t) (htu : t.Reaches u) : s.Reaches u := by
  obtain ⟨n, hn, hpos, hrest⟩ := hst.further
  obtain ⟨k, hk, hpos', hrest'⟩ := htu.further
  rw [hrest, List.length_drop] at hk
  refine ⟨htu.proper, n + k, by omega, by omega, ?_⟩
  rw [hrest', hrest, List.drop_drop]

lemma Reaches.pos_le {s t : Spot} (h : s.Reaches t) : s.pos ≤ t.pos := by
  obtain ⟨n, -, hpos, -⟩ := h.further
  omega

lemma Reaches.rest_eq {s t : Spot} (h : s.Reaches t) : t.rest = s.rest.drop (t.pos - s.pos) := by
  obtain ⟨n, -, hpos, hrest⟩ := h.further
  rw [hrest, hpos, Nat.add_sub_cancel_left]

lemma Reaches.length_le {s t : Spot} (h : s.Reaches t) : t.pos - s.pos ≤ s.rest.length := by
  obtain ⟨n, hn, hpos, -⟩ := h.further
  omega

lemma reaches_next {pos : Nat} {c : Char} {cs : Text} {captures : List (Nat × Capture)}
    (hs : (Spot.mk pos (c :: cs) captures).Proper) : (Spot.mk pos (c :: cs) captures).Reaches ⟨pos + 1, cs, captures⟩ :=
  ⟨hs, 1, Nat.succ_le_succ (Nat.zero_le _), rfl, rfl⟩

lemma Reaches.capture {s t : Spot} (h : s.Reaches t) (n : Nat) :
    s.Reaches (t.capture n ⟨s.rest, t.pos - s.pos⟩) := by
  refine ⟨fun k c hc => ?_, h.further⟩
  change ((n, _) :: t.captures).lookup k = some c at hc
  rw [List.lookup_cons] at hc
  split at hc
  · cases hc
    exact h.length_le
  · exact h.proper k c hc

end Spot

namespace Regex

variable {α : Type}

/-- Whatever a matcher comes to, what remains to be done is done at a place further on. -/
def Progresses (f : Spot → (Spot → Option α) → Option α) : Prop :=
  ∀ s k a, s.Proper → f s k = some a → ∃ t, s.Reaches t ∧ k t = some a

lemma stripText_eq_some {ignoreCase : Bool} {w t rest : Text} (h : stripText ignoreCase w t = some rest) :
    w.length ≤ t.length ∧ rest = t.drop w.length := by
  fun_induction stripText ignoreCase w t with
  | case1 t =>
    cases h
    exact ⟨Nat.zero_le _, rfl⟩
  | case2 => cases h
  | case3 c cs d ds same hsame ih =>
    obtain ⟨hle, hrest⟩ := ih h
    exact ⟨Nat.succ_le_succ hle, hrest⟩
  | case4 => cases h

lemma progresses_done : Progresses (α := α) fun s k => k s := fun s _ _ hs h => ⟨s, .refl hs, h⟩

lemma progresses_one (test : Char → Bool) : Progresses (α := α) (one test) := by
  rintro ⟨pos, rest, captures⟩ k a hs h
  cases rest with
  | nil => cases h
  | cons c cs =>
    rw [one] at h
    dsimp only at h
    split at h
    · exact ⟨_, Spot.reaches_next hs, h⟩
    · cases h

lemma progresses_if {f : Spot → (Spot → Option α) → Option α} (hf : Progresses f) (p : Spot → Prop) [DecidablePred p] :
    Progresses fun s k => if p s then f s k else none := by
  intro s k a hs h
  dsimp only at h
  split at h
  · exact hf s k a hs h
  · cases h

lemma progresses_sweep (test : Char → Bool) {captures : List (Nat × Capture)} {k : Spot → Option α} {a : α}
    {rest : Text} {pos min : Nat} {max : Option Nat} (hs : (Spot.mk pos rest captures).Proper)
    (h : sweep test captures k rest pos min max = some a) :
    ∃ t, (Spot.mk pos rest captures).Reaches t ∧ k t = some a := by
  induction rest generalizing pos min max with
  | nil =>
    rw [sweep] at h
    split at h
    · exact ⟨_, .refl hs, h⟩
    · cases h
  | cons c cs ih =>
    have hstop {o : Option α} (ho : o = some a) (h : o = if min = 0 then k ⟨pos, c :: cs, captures⟩ else none) :
        ∃ t, (Spot.mk pos (c :: cs) captures).Reaches t ∧ k t = some a := by
      rw [h] at ho
      split at ho
      · exact ⟨_, .refl hs, ho⟩
      · cases ho
    rw [sweep] at h
    split at h
    · split at h
      · rename_i b hb
        have hs' : (Spot.mk (pos + 1) cs captures).Proper := hs
        obtain ⟨t, ht, hk⟩ := ih hs' (h ▸ hb)
        exact ⟨t, (Spot.reaches_next hs).trans ht, hk⟩
      · exact hstop h rfl
    · exact hstop h rfl

lemma progresses_rounds {body : Spot → (Spot → Option α) → Option α} (hbody : Progresses body) (min : Nat)
    (max : Option Nat) (fuel count : Nat) (last : Option Nat) :
    Progresses (rounds body min max fuel count last) := by
  induction fuel generalizing count last with
  | zero => exact progresses_done
  | succ fuel ih =>
    intro s k a hs h
    have hround {last' : Option Nat}
        (h : (body s fun t => rounds body min max fuel (count + 1) last' t k) = some a) :
        ∃ t, s.Reaches t ∧ k t = some a := by
      obtain ⟨t, hst, h⟩ := hbody s _ a hs h
      obtain ⟨u, htu, h⟩ := ih _ _ t k a hst.proper h
      exact ⟨u, hst.trans htu, h⟩
    rw [rounds] at h
    split at h
    · exact hround h
    · split at h
      · split at h
        · rename_i b hb
          exact hround (h ▸ hb)
        · exact ⟨s, .refl hs, h⟩
      · exact ⟨s, .refl hs, h⟩

lemma progresses_backref (ignoreCase : Bool) (n : Nat) : Progresses (α := α) (run ignoreCase (.backref n)) := by
  intro s k a hs h
  rw [run] at h
  cases hc : s.captured? n with
  | none =>
    rw [hc] at h
    cases h
  | some c =>
    rw [hc] at h
    dsimp only at h
    split at h
    · cases h
    · rename_i rest hrest
      obtain ⟨hle, hrest⟩ := stripText_eq_some hrest
      have hlength : c.text.length = c.length := List.length_take_of_le (hs n c hc)
      rw [hlength] at hle hrest
      exact ⟨{ s with pos := s.pos + c.length, rest }, ⟨hs, c.length, hle, rfl, hrest⟩, h⟩

lemma progresses_run (ignoreCase : Bool) (r : Regex) : Progresses (α := α) (r.run ignoreCase) := by
  induction r with
  | empty => exact progresses_done
  | char c => exact progresses_one _
  | any => exact progresses_one _
  | set cs => exact progresses_one _
  | start => exact progresses_if progresses_done fun s => s.pos = 0
  | finish => exact progresses_if progresses_done fun s => s.rest.isEmpty = true
  | finishLine => exact progresses_if progresses_done fun s => (s.rest.isEmpty || s.rest = ['\n']) = true
  | group n r ih =>
    intro s k a hs h
    obtain ⟨t, ht, h⟩ := ih s _ a hs h
    exact ⟨_, ht.capture n, h⟩
  | backref n => exact progresses_backref ignoreCase n
  | seq r r' ih ih' =>
    intro s k a hs h
    obtain ⟨t, hst, h⟩ := ih s _ a hs h
    obtain ⟨u, htu, h⟩ := ih' t k a hst.proper h
    exact ⟨u, hst.trans htu, h⟩
  | alt r r' ih ih' =>
    intro s k a hs h
    rw [run] at h
    split at h
    · rename_i b hb
      exact ih s k a hs (h ▸ hb)
    · exact ih' s k a hs h
  | rep min max r ih =>
    intro s k a hs h
    rw [run] at h
    split at h
    · exact progresses_sweep _ hs h
    · exact progresses_rounds ih min max _ 0 none s k a hs h

lemma of_matchAt {ignoreCase : Bool} {r : Regex} {s t : Spot} {advance : Bool} (hs : s.Proper)
    (h : matchAt ignoreCase r s advance = some t) : s.Reaches t ∧ (advance = true → t.pos ≠ s.pos) := by
  obtain ⟨u, hsu, hu⟩ := progresses_run ignoreCase r s _ t hs h
  split at hu
  · cases hu
  · rename_i hne
    cases hu
    exact ⟨hsu, by simpa using hne⟩

end Regex

end StreamEditor
