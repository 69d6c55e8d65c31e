import Mathlib.Data.List.Infix
import StreamEditor.Proofs.Quoting

namespace StreamEditor

open Dialect Regex

structure Spells (a b w : Text) : Prop where
  translated : ∀ whole previous rest,
    translateFrom whole previous (a ++ rest) = (translateFrom whole (a.getLast?.or previous) rest).map (b ++ ·)
  tokens_eq : ∀ rest, tokens (b ++ rest) = w.map (fun c => .item (.char c)) ++ tokens rest

lemma spells_nil : Spells [] [] [] where
  translated whole previous rest := by
    change translateFrom whole previous rest = _
    cases h : translateFrom whole previous rest <;> simp [Except.map, h]
  tokens_eq rest := rfl

lemma Spells.append {a b w a' b' w' : Text} (h : Spells a b w) (h' : Spells a' b' w') :
    Spells (a ++ a') (b ++ b') (w ++ w') where
  translated whole previous rest := by
    rw [List.append_assoc, h.translated, h'.translated, List.getLast?_append, Option.or_assoc]
    cases translateFrom whole (a'.getLast?.or (a.getLast?.or previous)) rest <;> simp [Except.map]
  tokens_eq rest := by
    rw [List.append_assoc, h.tokens_eq, h'.tokens_eq, List.map_append, List.append_assoc]

section

variable {c : Char}

lemma spells_char (hp : isPlain c = true) (ho : isOperator c = false) : Spells [c] [c] [c] where
  translated whole previous rest := translateFrom_plain whole previous hp rest
  tokens_eq rest := tokens_cons (nextToken_char ho rest)

lemma spells_escape (hk : keepsEscape c = true) (ha : c.isAlphanum = false) : Spells ['\\', c] ['\\', c] [c] where
  translated whole previous rest := translateFrom_escape whole previous hk rest
  tokens_eq rest := tokens_cons (nextToken_escape ha rest)

lemma spells_newline : Spells ['\\', 'n'] ['\\', 'n'] ['\n'] where
  translated whole previous rest := translateFrom_escape whole previous (by decide) rest
  tokens_eq _ := tokens_cons rfl

lemma spells_tab : Spells ['\\', 't'] ['\\', 't'] ['\t'] where
  translated whole previous rest := translateFrom_escape whole previous (by decide) rest
  tokens_eq _ := tokens_cons rfl

lemma translateFrom_unescape (hk : keepsEscape c = false) (hd : Text.isDigit c = false) (whole : Text)
    (previous : Option Char) (rest : Text) :
    translateFrom whole previous ('\\' :: c :: rest) = (translateFrom whole (some c) rest).map ([c] ++ ·) := by
  rw [translateFrom]
  simp [convertEscape, hk, hd]

lemma spells_unescape (hk : keepsEscape c = false) (hd : Text.isDigit c = false) : Spells ['\\', c] [c] [c] where
  translated whole previous rest := translateFrom_unescape hk hd whole previous rest
  tokens_eq rest := tokens_cons (nextToken_char (Text.contains_eq_false (p := keepsEscape) (by decide) hk) rest)

lemma spells_ordinary {u : Text} (hu : ∀ c ∈ u, Atom.isSpecial c = false) : Spells u u u := by
  induction u with
  | nil => exact spells_nil
  | cons c u ih =>
    obtain ⟨hc, hu⟩ := List.forall_mem_cons.1 hu
    have hplain : isPlain c = true := isPlain_of_not_isSpecial (by simp [hc])
    have hoperator : isOperator c = false := Text.contains_eq_false (p := Atom.isSpecial) (by decide) hc
    exact (spells_char hplain hoperator).append (ih hu)

end

section

variable {a b w : Text}

lemma Spells.translate_eq (h : Spells a b w) : translate a = .ok b := by
  have ht := h.translated a none []
  rw [List.append_nil, translateFrom_nil] at ht
  simpa [Dialect.translate, Except.map] using ht

lemma foldlM_items (rs : List Regex) (b : Builder) :
    (rs.map Token.item).foldlM Builder.step b = .ok { b with items := rs.reverse ++ b.items } := by
  induction rs generalizing b with
  | nil => rfl
  | cons r rs ih => exact (ih _).trans (by simp)

lemma parse_items {t : Text} {rs : List Regex} (h : tokens t = rs.map .item) : Regex.parse t = .ok (ofItems rs) := by
  rw [Regex.parse, h, foldlM_items]
  simp [bind, Except.bind, Builder.initial, Builder.result, Builder.body, ofBranches]

lemma Spells.parse_eq (h : Spells a b w) : Regex.parse b = .ok (literal w) := by
  refine parse_items ?_
  have ht := h.tokens_eq []
  rw [List.append_nil, tokens_nil, List.append_nil] at ht
  rw [List.map_map]
  exact ht

end

lemma ofScript_eq {source p : Text} {extended : Bool} {r : Regex} (hs : source ≠ [])
    (hp : Dialect.convert source extended = .ok p) (hr : Regex.parse p = .ok r) (ignoreCase : Bool) :
    Regexp.ofScript false extended ignoreCase source = .ok (some ⟨p, ignoreCase, some r⟩) := by
  simp [Regexp.ofScript, hs, hp, hr, bind, Except.bind]

lemma convert_of_flips {source t : Text} (h : Flips source t) : Dialect.convert source false = translate t := by
  rw [Dialect.convert, flip_eq_ok_iff.2 h]
  rfl

lemma flips_ordinary {u t t' : Text} (hu : ∀ c ∈ u, Atom.isSpecial c = false) (h : Flips t t') :
    Flips (u ++ t) (u ++ t') := by
  induction u with
  | nil => exact h
  | cons c u ih =>
    obtain ⟨hc, hu⟩ := List.forall_mem_cons.1 hu
    have hne {d : Char} (hd : Atom.isSpecial d = true) : c ≠ d := by
      rintro rfl
      simp [hc] at hd
    refine .char ?_ (hne rfl) (hne rfl) (ih hu)
    exact Text.contains_eq_false (p := Atom.isSpecial) (by decide) hc

lemma flips_ordinary_self {u : Text} (hu : ∀ c ∈ u, Atom.isSpecial c = false) : Flips u u := by
  simpa using flips_ordinary hu .nil

namespace Regex

lemma run_ofItems_append {α : Type} (ignoreCase : Bool) (rs rs' : List Regex) (s : Spot) (k : Spot → Option α) :
    (ofItems (rs ++ rs')).run ignoreCase s k =
      (ofItems rs).run ignoreCase s fun t => (ofItems rs').run ignoreCase t k := by
  induction rs generalizing s with
  | nil => simp only [List.nil_append, ofItems, run]
  | cons r rs ih => simp only [List.cons_append, run_ofItems_cons, ih]

lemma matchAt_inner_start {w : Text} (hw : w ≠ []) (rs : List Regex) (s : Spot) (advance : Bool) :
    matchAt false (ofItems (w.map .char ++ .start :: rs)) s advance = none := by
  rw [matchAt, run_ofItems_append]
  refine (run_literal w s _).trans (ite_eq_right_iff.2 fun _ => ?_)
  rw [run_ofItems_cons, run, if_neg (by simp [hw])]

lemma findFrom_eq_none {ignoreCase : Bool} {r : Regex} (h : ∀ s advance, matchAt ignoreCase r s advance = none)
    (t : Text) (pos : Nat) (advance : Bool) : findFrom ignoreCase r t pos advance = none := by
  induction t generalizing pos advance with
  | nil => rw [findFrom, h, Option.map_none]
  | cons c t ih => simp only [findFrom, h, ih]

end Regex

end StreamEditor
