import Mathlib.Tactic.Lemma
import StreamEditor.Editor.Step

namespace StreamEditor

namespace Store

variable {name : Text}

lemma put_cons_of_ne {f : Text × Bytes} (hf : f.1 ≠ name) (s : Store) (contents : Bytes) :
    Store.put (f :: s) name contents = f :: s.put name contents := by
  rw [put, put]
  by_cases hs : s.any (·.1 = name) = true
  · rw [if_pos (by simp [hs]), if_pos hs, List.map_cons, if_neg hf]
  · rw [if_neg (by simpa [hf] using hs), if_neg hs]
    rfl

lemma lookup_put_self (s : Store) (name : Text) (contents : Bytes) :
    (s.put name contents).lookup name = some contents := by
  induction s with
  | nil => simp [put]
  | cons f s ih =>
    by_cases hf : f.1 = name
    · simp [put, hf]
    · rw [put_cons_of_ne hf, List.lookup_cons, beq_eq_false_iff_ne.2 (Ne.symm hf)]
      exact ih

lemma lookup_put_of_ne {other : Text} (h : other ≠ name) (s : Store) (contents : Bytes) :
    (s.put name contents).lookup other = s.lookup other := by
  have hmap (s : Store) :
      (s.map fun f => if f.1 = name then (name, contents) else f).lookup other = s.lookup other := by
    induction s with
    | nil => rfl
    | cons f s ih =>
      by_cases hf : f.1 = name
      · rw [List.map_cons, if_pos hf, List.lookup_cons, List.lookup_cons, hf, beq_eq_false_iff_ne.2 h, ih]
      · rw [List.map_cons, if_neg hf, List.lookup_cons, List.lookup_cons, ih]
  rw [put]
  split
  · exact hmap s
  · simp [List.lookup_append, List.lookup_cons, beq_eq_false_iff_ne.2 h]

lemma exists_of_append {s t : Store} {path : Text} {bytes : Bytes} (ht : s.append path bytes = .ok t)
    (hpath : locate path ≠ .ok name) :
    ∃ other, other ≠ name ∧ locate path = .ok other ∧ t = s.put other ((s.lookup other).getD [] ++ bytes) := by
  rw [append] at ht
  cases hl : locate path with
  | error e =>
    rw [hl] at ht
    cases ht
  | ok other =>
    rw [hl] at ht
    cases ht
    exact ⟨other, fun h => hpath (h ▸ hl), rfl, rfl⟩

lemma lookup_append {s t : Store} {path : Text} {bytes : Bytes} (ht : s.append path bytes = .ok t)
    (hpath : locate path ≠ .ok name) : t.lookup name = s.lookup name := by
  obtain ⟨other, hne, -, rfl⟩ := exists_of_append ht hpath
  exact lookup_put_of_ne hne.symm _ _

lemma read_eq_of_lookup {s s' : Store} {path : Text}
    (h : ∀ name, locate path = .ok name → s.lookup name = s'.lookup name) : s.read path = s'.read path := by
  rw [read, read]
  cases hl : locate path with
  | error e => rfl
  | ok name => simp only [bind, Except.bind, h name hl]

def SameBut (name : Text) (s s' : Store) : Prop := ∀ other, other ≠ name → s.lookup other = s'.lookup other

namespace SameBut

variable {s s' : Store} (h : SameBut name s s')
include h

lemma put (contents : Bytes) : SameBut name s (s'.put name contents) :=
  fun other hne => (h other hne).trans (lookup_put_of_ne hne s' contents).symm

section

variable {path : Text} (hpath : locate path ≠ .ok name)
include hpath

lemma read_eq : s.read path = s'.read path :=
  read_eq_of_lookup fun other hl => h other fun hname => hpath (hname ▸ hl)

lemma fileLines_eq : fileLines s path = fileLines s' path := by
  rw [fileLines, h.read_eq hpath]
  rfl

lemma append {bytes : Bytes} {t t' : Store} (ht : s.append path bytes = .ok t) (ht' : s'.append path bytes = .ok t') :
    SameBut name t t' := by
  obtain ⟨other, hne, hl, rfl⟩ := exists_of_append ht hpath
  obtain ⟨_, -, hl', rfl⟩ := exists_of_append ht' hpath
  obtain rfl := Except.ok.inj (hl.symm.trans hl')
  intro x hx
  by_cases hxo : x = other
  · rw [hxo, lookup_put_self, lookup_put_self, h other hne]
  · rw [lookup_put_of_ne hxo, lookup_put_of_ne hxo, h x hx]

end

end SameBut

end Store

end StreamEditor
