import Mathlib.Tactic.Lemma

namespace StreamEditor

lemma bind_eq_ok {ε α β : Type} {x : Except ε α} {f : α → Except ε β} {b : β} :
    (x >>= f) = .ok b ↔ ∃ a, x = .ok a ∧ f a = .ok b := by
  cases x <;> simp [bind, Except.bind]

lemma map_eq_ok {ε α β : Type} {f : α → β} {x : Except ε α} {b : β} :
    x.map f = .ok b ↔ ∃ a, x = .ok a ∧ f a = b := by
  cases x <;> simp [Except.map]

lemma of_toOption {ε α : Type} {x : Except ε α} {a : α} (h : x.toOption = some a) : x = .ok a := by
  cases x with
  | ok b =>
    cases h
    rfl
  | error e => cases h

lemma toOption_join_eq_some {ε α : Type} {x : Except ε (Option α)} {a : α} :
    x.toOption.join = some a ↔ x = .ok (some a) := by
  cases x <;> simp [Except.toOption]

namespace Outcome

variable {ε σ α β : Type} {x : EStateM ε σ α} {f g : α → EStateM ε σ β} {s s' : σ}

lemma bind_ok {a : α} (h : x s = .ok a s') : (x >>= f) s = f a s' := by
  change EStateM.bind x f s = _
  rw [EStateM.bind, h]

lemma bind_error {e : ε} (h : x s = .error e s') : (x >>= f) s = .error e s' := by
  change EStateM.bind x f s = _
  rw [EStateM.bind, h]

lemma bind_eq_ok {b : β} : (x >>= f) s = .ok b s' ↔ ∃ a s₁, x s = .ok a s₁ ∧ f a s₁ = .ok b s' := by
  constructor
  · intro h
    cases hx : x s with
    | ok a s₁ => exact ⟨a, s₁, rfl, by rwa [bind_ok hx] at h⟩
    | error e s₁ => simp [bind_error hx] at h
  · rintro ⟨a, s₁, hx, hf⟩
    rw [bind_ok hx, hf]

lemma bind_congr (h : ∀ a s', x s = .ok a s' → f a s' = g a s') : (x >>= f) s = (x >>= g) s := by
  cases hx : x s with
  | ok a s₁ => rw [bind_ok hx, bind_ok hx, h a s₁ hx]
  | error e s₁ => rw [bind_error hx, bind_error hx]

lemma bind_of_eq {y : EStateM ε σ α} (h : x s = y s') : (x >>= f) s = (y >>= f) s' := by
  change EStateM.bind x f s = EStateM.bind y f s'
  rw [EStateM.bind, h, EStateM.bind]

lemma map_error {g : α → β} {e : ε} (h : x s = .error e s') : (g <$> x) s = .error e s' := by
  rw [map_eq_pure_bind]
  exact bind_error h

lemma map_of_eq {g : α → β} {y : EStateM ε σ α} (h : x s = y s') : (g <$> x) s = (g <$> y) s' := by
  rw [map_eq_pure_bind, map_eq_pure_bind]
  exact bind_of_eq h

def result? : EStateM.Result ε σ α → Option α
  | .ok a _ => some a
  | .error _ _ => none

lemma of_result? {r : EStateM.Result ε σ α} {a : α} (h : result? r = some a) : ∃ s, r = .ok a s := by
  cases r with
  | ok b s =>
    cases h
    exact ⟨s, rfl⟩
  | error e s => cases h

def failure? : EStateM.Result ε σ α → Option ε
  | .ok _ _ => none
  | .error e _ => some e

lemma of_failure? {r : EStateM.Result ε σ α} {e : ε} (h : failure? r = some e) : ∃ s, r = .error e s := by
  cases r with
  | ok b s => cases h
  | error e s =>
    cases h
    exact ⟨s, rfl⟩

def Keeps {γ : Type} (g : σ → γ) (x : EStateM ε σ α) : Prop := ∀ s a s', x s = .ok a s' → g s' = g s

section

variable {γ : Type} {g : σ → γ}

lemma Keeps.pure (a : α) : Keeps g (pure a : EStateM ε σ α) := by
  intro s b s' h
  cases h
  rfl

lemma Keeps.get : Keeps g (get : EStateM ε σ σ) := by
  intro s b s' h
  cases h
  rfl

lemma Keeps.bind {f : α → EStateM ε σ β} (hx : Keeps g x) (hf : ∀ a, Keeps g (f a)) : Keeps g (x >>= f) := by
  intro s b s' h
  obtain ⟨a, s₁, ha, hb⟩ := bind_eq_ok.1 h
  rw [hf a s₁ b s' hb, hx s a s₁ ha]

lemma Keeps.forM {τ : Type} {act : τ → EStateM ε σ PUnit} (h : ∀ t, Keeps g (act t)) (ts : List τ) :
    Keeps g (ts.forM act) := by
  induction ts with
  | nil => exact .pure _
  | cons t ts ih => exact .bind (h t) fun _ => ih

end

def Succeeds (x : EStateM ε σ α) (s : σ) (post : α → σ → Prop) : Prop := ∃ a s', x s = .ok a s' ∧ post a s'

section

variable {mid post : α → σ → Prop} {next : β → σ → Prop}

lemma Succeeds.pure {a : α} (h : post a s) : Succeeds (pure a : EStateM ε σ α) s post := ⟨a, s, rfl, h⟩

lemma Succeeds.bind (hx : Succeeds x s mid) (hf : ∀ a s', mid a s' → Succeeds (f a) s' next) :
    Succeeds (x >>= f) s next := by
  obtain ⟨a, s₁, ha, hm⟩ := hx
  obtain ⟨b, s₂, hb, hn⟩ := hf a s₁ hm
  exact ⟨b, s₂, by rw [bind_ok ha, hb], hn⟩

lemma Succeeds.forM {τ : Type} {I : σ → Prop} {act : τ → EStateM ε σ PUnit}
    {ts : List τ} (h : ∀ t ∈ ts, ∀ s, I s → Succeeds (act t) s fun _ => I) {s : σ} (hs : I s) :
    Succeeds (ts.forM act) s fun _ => I := by
  induction ts generalizing s with
  | nil => exact .pure hs
  | cons t ts ih =>
    rw [List.forall_mem_cons] at h
    exact .bind (h.1 s hs) fun _ _ => ih h.2

end

def final : EStateM.Result ε σ α → σ
  | .ok _ s | .error _ s => s

lemma final_bind {γ : Type} {g : σ → γ} (hf : ∀ a s, g (final (f a s)) = g s) (x : EStateM ε σ α) (s : σ) :
    g (final ((x >>= f) s)) = g (final (x s)) := by
  cases h : x s with
  | ok a s₁ =>
    rw [bind_ok h]
    exact hf a s₁
  | error e s₁ =>
    rw [bind_error h]
    rfl

end Outcome

end StreamEditor
