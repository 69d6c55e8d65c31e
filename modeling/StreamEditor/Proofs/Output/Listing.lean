import Mathlib.Tactic.ByContra
import StreamEditor.Proofs.Output.File
import StreamEditor.Proofs.Output.Shown
import StreamEditor.Regex.Basic

/-! Which pattern spaces are listed alike. Folding loses nothing, but a backslash is listed as itself, and of the code
of a character only three octal digits are. -/

namespace StreamEditor

open Edit Outcome

def listing (t : Text) : List Text := foldLine (visible t)

def unfoldLines : List Text → Text
  | [] => []
  | [l] => l
  | l :: l' :: ls => l.dropLast ++ unfoldLines (l' :: ls)

lemma foldLine_ne_nil (t : Text) : foldLine t ≠ [] := by
  rw [foldLine]
  split <;> simp

lemma unfoldLines_cons (l : Text) {ls : List Text} (h : ls ≠ []) :
    unfoldLines (l :: ls) = l.dropLast ++ unfoldLines ls := by
  cases ls with
  | nil => exact absurd rfl h
  | cons l' ls => rfl

lemma unfoldLines_foldLine (t : Text) : unfoldLines (foldLine t) = t := by
  fun_induction foldLine t with
  | case1 t h => rfl
  | case2 t h ih =>
    rw [unfoldLines_cons _ (foldLine_ne_nil _), ih, List.dropLast_concat, List.take_append_drop]

lemma mem_of_mem_foldLine {t l : Text} {c : Char} (hl : l ∈ foldLine t) (hc : c ∈ l) : c ∈ t ∨ c = '\\' := by
  fun_induction foldLine t with
  | case1 t h =>
    cases List.mem_singleton.1 hl
    exact .inl hc
  | case2 t h ih =>
    rcases List.mem_cons.1 hl with rfl | hl
    · rcases List.mem_append.1 hc with hc | hc
      · exact .inl (List.mem_of_mem_take hc)
      · exact .inr (List.mem_singleton.1 hc)
    · exact (ih hl).imp_left List.mem_of_mem_drop

def spelled (t : Text) : Text := t.flatMap visibleChar

lemma listing_eq_iff {p q : Text} : listing p = listing q ↔ spelled p = spelled q := by
  constructor
  · intro h
    have hvisible : visible p = visible q := by
      rw [← unfoldLines_foldLine (visible p), ← unfoldLines_foldLine (visible q)]
      exact congrArg unfoldLines h
    exact List.append_cancel_right hvisible
  · intro h
    rw [listing, listing, visible, visible]
    exact congrArg (fun t => foldLine (t ++ ['$'])) h

lemma spelled_append (t u : Text) : spelled (t ++ u) = spelled t ++ spelled u := List.flatMap_append

lemma spelled_cons (c : Char) (t : Text) : spelled (c :: t) = visibleChar c ++ spelled t := List.flatMap_cons

def IsPlain (c : Char) : Prop := 32 ≤ c.toNat ∧ c.toNat < 128

instance (c : Char) : Decidable (IsPlain c) := inferInstanceAs (Decidable (_ ∧ _))

inductive IsEscape : Text → Prop
  | newline : IsEscape ['\\', 'n']
  | tab : IsEscape ['\\', 't']
  | code {x y z : Char} : Regex.isOctal x = true → Regex.isOctal y = true → Regex.isOctal z = true →
    IsEscape ['\\', x, y, z]

def Unescaped (t : Text) : Prop := ∀ e, IsEscape e → ¬e <:+: t

section

variable {n : Nat} {c : Char}

lemma toDigits_eight (n : Nat) :
    Nat.toDigits 8 n = (if n < 8 then [] else Nat.toDigits 8 (n / 8)) ++ [(n % 8).digitChar] := by
  split
  · rename_i h
    rw [Nat.toDigits_of_lt_base h, Nat.mod_eq_of_lt h, List.nil_append]
  · rename_i h
    exact Nat.toDigits_of_base_le (by decide) (Nat.le_of_not_lt h)

lemma octalCode_eq (n : Nat) :
    octalCode n = [(n / 64 % 8).digitChar, (n / 8 % 8).digitChar, (n % 8).digitChar] := by
  have hn : n / 64 = n / 8 / 8 := by omega
  rw [hn, octalCode, toDigits_eight n]
  split
  · rename_i h
    rw [Nat.div_eq_of_lt h]
    rfl
  · rw [toDigits_eight (n / 8)]
    split
    · rename_i h
      rw [Nat.div_eq_of_lt h]
      rfl
    · rw [toDigits_eight (n / 8 / 8), Text.padLeft]
      simp

lemma toNat_digitChar (h : n < 8) : n.digitChar.toNat = 48 + n := Nat.toNat_digitChar_of_lt_ten (by omega)

lemma isOctal_digitChar (h : n < 8) : Regex.isOctal n.digitChar = true := by
  have : ∀ k < 8, Regex.isOctal (Nat.digitChar k) = true := by decide
  exact this n h

lemma eq_digitChar_of_isOctal (h : Regex.isOctal c = true) : ∃ k < 8, c = k.digitChar := by
  rw [Regex.isOctal, Bool.and_eq_true, decide_eq_true_eq, decide_eq_true_eq] at h
  have hc : 48 ≤ c.toNat ∧ c.toNat ≤ 55 := h
  refine ⟨c.toNat - 48, by omega, Char.toNat_inj.1 ?_⟩
  rw [toNat_digitChar (by omega)]
  omega

lemma visibleChar_of_plain (h : IsPlain c) : visibleChar c = [c] := by
  obtain ⟨hlow, hhigh⟩ := h
  have hn : c ≠ '\n' := by
    rintro rfl
    exact absurd hlow (by decide)
  have ht : c ≠ '\t' := by
    rintro rfl
    exact absurd hlow (by decide)
  rw [visibleChar, if_neg hn, if_neg ht, if_pos ⟨hlow, hhigh⟩]

lemma visibleChar_of_not_plain (h : ¬IsPlain c) (hn : c ≠ '\n') (ht : c ≠ '\t') :
    visibleChar c = ['\\', (c.toNat / 64 % 8).digitChar, (c.toNat / 8 % 8).digitChar, (c.toNat % 8).digitChar] := by
  rw [IsPlain] at h
  rw [visibleChar, if_neg hn, if_neg ht, if_neg h, octalCode_eq]

lemma isEscape_visibleChar (h : ¬IsPlain c) : IsEscape (visibleChar c) := by
  have hdigit (n : Nat) : Regex.isOctal (n % 8).digitChar = true := isOctal_digitChar (Nat.mod_lt _ (by decide))
  by_cases hn : c = '\n'
  · subst hn
    exact .newline
  · by_cases ht : c = '\t'
    · subst ht
      exact .tab
    · rw [visibleChar_of_not_plain h hn ht]
      exact .code (hdigit _) (hdigit _) (hdigit _)

def escapeCode : Text → Nat
  | [_, c] => if c = 'n' then 10 else 9
  | e => Regex.octalNumber e.tail

lemma escapeCode_visibleChar (hc : c.toNat < 512) (h : ¬IsPlain c) : escapeCode (visibleChar c) = c.toNat := by
  by_cases hn : c = '\n'
  · subst hn
    rfl
  · by_cases ht : c = '\t'
    · subst ht
      rfl
    · have hvalue (k : Nat) : Text.digitValue (k % 8).digitChar = k % 8 := by
        rw [Text.digitValue, toNat_digitChar (Nat.mod_lt _ (by decide))]
        exact Nat.add_sub_cancel_left 48 _
      have hcode (x y z : Char) : escapeCode ['\\', x, y, z] =
          8 * (8 * (8 * 0 + Text.digitValue x) + Text.digitValue y) + Text.digitValue z := rfl
      rw [visibleChar_of_not_plain h hn ht, hcode, hvalue, hvalue, hvalue]
      omega

end

namespace IsEscape

variable {e e' : Text}

lemma exists_visibleChar (h : IsEscape e) : ∃ c, ¬IsPlain c ∧ visibleChar c = e := by
  cases h with
  | newline => exact ⟨'\n', by decide, rfl⟩
  | tab => exact ⟨'\t', by decide, rfl⟩
  | code hx hy hz =>
    obtain ⟨i, hi, rfl⟩ := eq_digitChar_of_isOctal hx
    obtain ⟨j, hj, rfl⟩ := eq_digitChar_of_isOctal hy
    obtain ⟨k, hk, rfl⟩ := eq_digitChar_of_isOctal hz
    have hvalid : (512 + 64 * i + 8 * j + k).isValidChar := .inl (by omega)
    obtain ⟨c, hc⟩ : ∃ c : Char, c.toNat = 512 + 64 * i + 8 * j + k := ⟨.ofNatAux _ hvalid, rfl⟩
    have hplain : ¬IsPlain c := by
      rw [IsPlain]
      omega
    have hn : c ≠ '\n' := by
      rintro rfl
      have : (10 : Nat) = 512 + 64 * i + 8 * j + k := hc
      omega
    have ht : c ≠ '\t' := by
      rintro rfl
      have : (9 : Nat) = 512 + 64 * i + 8 * j + k := hc
      omega
    refine ⟨c, hplain, ?_⟩
    have hx : c.toNat / 64 % 8 = i := by omega
    have hy : c.toNat / 8 % 8 = j := by omega
    have hz : c.toNat % 8 = k := by omega
    rw [visibleChar_of_not_plain hplain hn ht, hx, hy, hz]

lemma eq_cons (h : IsEscape e) : ∃ x, e = '\\' :: x ∧ x ≠ [] ∧ '\\' ∉ x := by
  cases h with
  | newline => exact ⟨['n'], rfl, by decide, by decide⟩
  | tab => exact ⟨['t'], rfl, by decide, by decide⟩
  | @code x y z hx hy hz =>
    refine ⟨[x, y, z], rfl, List.cons_ne_nil _ _, fun h => ?_⟩
    have hoctal : ∀ c ∈ [x, y, z], Regex.isOctal c = true := by simp [hx, hy, hz]
    exact absurd (hoctal _ h) (by decide)

lemma plain (h : IsEscape e) : ∀ c ∈ e, IsPlain c := by
  have hplain {c : Char} (hc : Regex.isOctal c = true) : IsPlain c := by
    obtain ⟨k, hk, rfl⟩ := eq_digitChar_of_isOctal hc
    rw [IsPlain, toNat_digitChar hk]
    omega
  have hbackslash : IsPlain '\\' := by decide
  have hn : IsPlain 'n' := by decide
  have ht : IsPlain 't' := by decide
  cases h with
  | newline => simp [hbackslash, hn]
  | tab => simp [hbackslash, ht]
  | code hx hy hz => simp [hbackslash, hplain hx, hplain hy, hplain hz]

lemma eq_of_append_eq {t u : Text} (h : IsEscape e) (h' : IsEscape e') (heq : e ++ t = e' ++ u) : e = e' := by
  cases h with
  | newline =>
    cases h' with
    | newline => rfl
    | tab => cases heq
    | code hx =>
      cases heq
      exact absurd hx (by decide)
  | tab =>
    cases h' with
    | newline => cases heq
    | tab => rfl
    | code hx =>
      cases heq
      exact absurd hx (by decide)
  | code hx =>
    cases h' with
    | newline | tab =>
      cases heq
      exact absurd hx (by decide)
    | code =>
      cases heq
      rfl

end IsEscape

section

variable {p q t : Text} {c : Char}

lemma spelled_cons_of_plain (h : IsPlain c) : spelled (c :: t) = c :: spelled t := by
  rw [spelled_cons, visibleChar_of_plain h, List.singleton_append]

lemma spelled_of_plain (h : ∀ c ∈ t, IsPlain c) : spelled t = t := by
  induction t with
  | nil => rfl
  | cons c t ih =>
    rw [List.forall_mem_cons] at h
    rw [spelled_cons_of_plain h.1, ih h.2]

lemma plain_visibleChar (c : Char) : ∀ d ∈ visibleChar c, IsPlain d := by
  by_cases h : IsPlain c
  · rw [visibleChar_of_plain h]
    simpa using h
  · exact (isEscape_visibleChar h).plain

lemma spelled_visibleChar (a b : Text) (c : Char) : spelled (a ++ visibleChar c ++ b) = spelled (a ++ c :: b) := by
  rw [spelled_append, spelled_append, spelled_append, spelled_cons, spelled_of_plain (plain_visibleChar c),
    List.append_assoc]

lemma length_visibleChar_eq_one (c : Char) : (visibleChar c).length = 1 ↔ IsPlain c := by
  by_cases h : IsPlain c
  · simp [visibleChar_of_plain h, h]
  · obtain ⟨x, hx, hnil, -⟩ := (isEscape_visibleChar h).eq_cons
    simp [hx, hnil, h]

lemma append_visibleChar_ne (a b : Text) (hc : ¬IsPlain c) : a ++ visibleChar c ++ b ≠ a ++ c :: b := by
  intro h
  apply hc
  have hlength := congrArg List.length h
  simp only [List.length_append, List.length_cons] at hlength
  rw [← length_visibleChar_eq_one]
  omega

lemma spelled_cons_ne_nil (c : Char) (t : Text) : spelled (c :: t) ≠ [] := by
  by_cases hc : IsPlain c
  · rw [spelled_cons_of_plain hc]
    exact List.cons_ne_nil _ _
  · obtain ⟨x, hx, -⟩ := (isEscape_visibleChar hc).eq_cons
    rw [spelled_cons, hx]
    exact List.cons_ne_nil _ _

lemma eq_of_visibleChar_eq {d : Char} (hc : c.toNat < 512) (hd : d.toNat < 512) (h : visibleChar c = visibleChar d) :
    c = d := by
  have hplain : IsPlain c ↔ IsPlain d := by
    rw [← length_visibleChar_eq_one, ← length_visibleChar_eq_one, h]
  by_cases hcp : IsPlain c
  · rw [visibleChar_of_plain hcp, visibleChar_of_plain (hplain.1 hcp)] at h
    exact List.singleton_inj.1 h
  · apply Char.toNat_inj.1
    rw [← escapeCode_visibleChar hc hcp, ← escapeCode_visibleChar hd (hplain.not.1 hcp), h]

lemma prefix_of_spelled {x : Text} (hx : '\\' ∉ x) (h : x <+: spelled p) : x <+: p := by
  induction x generalizing p with
  | nil => exact List.nil_prefix
  | cons a x ih =>
    rw [List.mem_cons, not_or] at hx
    cases p with
    | nil => exact absurd (List.prefix_nil.1 h) (List.cons_ne_nil _ _)
    | cons c p =>
      by_cases hc : IsPlain c
      · rw [spelled_cons_of_plain hc, List.cons_prefix_cons] at h
        exact List.cons_prefix_cons.2 ⟨h.1, ih hx.2 h.2⟩
      · obtain ⟨y, hy, -⟩ := (isEscape_visibleChar hc).eq_cons
        rw [spelled_cons, hy] at h
        exact absurd (List.cons_prefix_cons.1 h).1.symm hx.1

namespace Unescaped

lemma tail (h : Unescaped (c :: p)) : Unescaped p :=
  fun e he hpart => h e he (hpart.trans (List.suffix_cons c p).isInfix)

-- A backslash that is listed as itself is not followed by what would make it an escape.
lemma visibleChar_eq_of_starts {e : Text} (h : Unescaped (c :: p)) (he : IsEscape e) (hpre : e <+: spelled (c :: p)) :
    visibleChar c = e := by
  by_cases hc : IsPlain c
  · obtain ⟨x, rfl, -, hx⟩ := he.eq_cons
    rw [spelled_cons_of_plain hc, List.cons_prefix_cons] at hpre
    have hstarts : '\\' :: x <+: c :: p := List.cons_prefix_cons.2 ⟨hpre.1, prefix_of_spelled hx hpre.2⟩
    exact absurd hstarts.isInfix (h _ he)
  · rw [spelled_cons] at hpre
    obtain ⟨t, ht⟩ := hpre
    exact (isEscape_visibleChar hc).eq_of_append_eq he ht.symm

lemma visibleChar_eq {d : Char} (hp : Unescaped (c :: p)) (hq : Unescaped (d :: q))
    (h : spelled (c :: p) = spelled (d :: q)) : visibleChar c = visibleChar d := by
  by_cases hc : IsPlain c
  · by_cases hd : IsPlain d
    · rw [spelled_cons_of_plain hc, spelled_cons_of_plain hd] at h
      rw [(List.cons.inj h).1]
    · refine hp.visibleChar_eq_of_starts (isEscape_visibleChar hd) ?_
      rw [h, spelled_cons]
      exact List.prefix_append _ _
  · refine (hq.visibleChar_eq_of_starts (isEscape_visibleChar hc) ?_).symm
    rw [← h, spelled_cons]
    exact List.prefix_append _ _

lemma eq_of_spelled_eq (hp : Unescaped p) (hq : Unescaped q) (hpcode : ∀ c ∈ p, c.toNat < 512)
    (hqcode : ∀ c ∈ q, c.toNat < 512) (h : spelled p = spelled q) : p = q := by
  induction p generalizing q with
  | nil =>
    cases q with
    | nil => rfl
    | cons d q => exact absurd h.symm (spelled_cons_ne_nil d q)
  | cons c p ih =>
    cases q with
    | nil => exact absurd h (spelled_cons_ne_nil c p)
    | cons d q =>
      rw [List.forall_mem_cons] at hpcode hqcode
      have hchar := hp.visibleChar_eq hq h
      rw [spelled_cons, spelled_cons, hchar, List.append_cancel_left_eq] at h
      rw [eq_of_visibleChar_eq hpcode.1 hqcode.1 hchar, ih hp.tail hq.tail hpcode.2 hqcode.2 h]

end Unescaped

lemma spelled_determines_iff :
    (∀ q, spelled q = spelled p → q = p) ↔ (∀ c ∈ p, IsPlain c) ∧ Unescaped p := by
  constructor
  · intro h
    constructor
    · intro c hc
      by_contra hplain
      obtain ⟨a, b, rfl⟩ := List.append_of_mem hc
      exact append_visibleChar_ne a b hplain (h _ (spelled_visibleChar a b c))
    · rintro e he ⟨a, b, rfl⟩
      obtain ⟨c, hplain, rfl⟩ := he.exists_visibleChar
      exact append_visibleChar_ne a b hplain (h _ (spelled_visibleChar a b c).symm).symm
  · rintro ⟨hplain, hunescaped⟩ q hq
    rw [spelled_of_plain hplain] at hq
    have hqplain : ∀ d ∈ q, IsPlain d := by
      intro d hd
      by_contra hd'
      obtain ⟨a, b, rfl⟩ := List.append_of_mem hd
      rw [spelled_append, spelled_cons, ← List.append_assoc] at hq
      exact hunescaped _ (isEscape_visibleChar hd') ⟨_, _, hq⟩
    rwa [spelled_of_plain hqplain] at hq

end

lemma isLatin1_of_mem_listing {t line : Text} (h : line ∈ listing t) : IsLatin1 line := by
  have hlatin1 {c : Char} (hc : IsPlain c) : Text.isLatin1 c = true := decide_eq_true (by rw [IsPlain] at hc; omega)
  intro c hc
  rcases mem_of_mem_foldLine h hc with hc | rfl
  · rcases List.mem_append.1 hc with hc | hc
    · obtain ⟨d, -, hd⟩ := List.mem_flatMap.1 hc
      exact hlatin1 (plain_visibleChar d c hd)
    · rw [List.mem_singleton.1 hc]
      rfl
  · rfl

def Output.isClosed : Output → Bool
  | .file _ closed _ => closed
  | _ => false

section

variable {m : Machine} (h : m.editor.output.isClosed = false)
include h

lemma succeeds_print {line : Text} (hline : IsLatin1 line) :
    Succeeds (print line) m fun _ m' => m'.editor.output.isClosed = false := by
  rw [Succeeds, print_eq, Outside.print, show m.outside.output = m.editor.output from rfl]
  cases ho : m.editor.output with
  | silent | stream => exact ⟨(), _, rfl, rfl⟩
  | file name closed written =>
    rw [ho] at h
    cases h
    rw [unencodable?_eq_none hline]
    exact ⟨(), _, rfl, rfl⟩

lemma perform_list {i : Nat} {c : Command} (hc : c.action = .list) :
    Succeeds (c.perform i) m fun flow m' => flow = .onward ∧ m'.shown = m.shown ++ listing m.space := by
  have hsucceeds : Succeeds (c.perform i) m fun flow _ => flow = .onward := by
    have hprint (t : Text) : Succeeds ((listing t).forM print) m fun _ m' => m'.editor.output.isClosed = false :=
      .forM (fun line hline m' hm' => succeeds_print hm' (isLatin1_of_mem_listing hline)) h
    rw [Command.perform, hc]
    exact after_pattern fun t => .bind (hprint t) fun _ _ _ => .pure rfl
  obtain ⟨flow, m', hok, hflow⟩ := hsucceeds
  have hshown := (adds_perform i c flow m' hok).1
  rw [Command.lines, hc, shownOf_asked] at hshown
  exact ⟨flow, m', hok, hflow, hshown⟩

end

/-- A list command shows the listing of the pattern space. This tells a text from all others if and only if the text is
plain and nothing in it reads as an escape. Of texts in which nothing does and that need no code of more than three
digits, no two are listed alike. -/
theorem listing_tells_unescaped (p : Text) :
    (∀ (i : Nat) (c : Command) (m : Machine), c.action = .list → m.space = p → m.editor.output.isClosed = false →
      Succeeds (c.perform i) m fun flow m' => flow = .onward ∧ m'.shown = m.shown ++ listing p) ∧
    ((∀ q, listing q = listing p → q = p) ↔ (∀ c ∈ p, IsPlain c) ∧ Unescaped p) ∧
    ∀ q, Unescaped p → Unescaped q → (∀ c ∈ p ++ q, c.toNat < 512) → listing p = listing q → p = q := by
  refine ⟨?_, ?_, fun q hp hq hcodes h => ?_⟩
  · rintro i c m hc rfl h
    exact perform_list h hc
  · simp only [listing_eq_iff]
    exact spelled_determines_iff
  · rw [List.forall_mem_append] at hcodes
    exact hp.eq_of_spelled_eq hq hcodes.1 hcodes.2 (listing_eq_iff.1 h)

theorem listing_tells_unescaped_backslash :
    (Succeeds (Command.perform 0 ⟨1, none, none, false, .list, none, none⟩)
      ⟨{ pattern := some ['a', '\\', 'x'] }, [], 1, false, #[], 0⟩ fun flow m' =>
        flow = .onward ∧ m'.shown = [['a', '\\', 'x', '$']]) ∧
      (∀ q, listing q = [['a', '\\', 'x', '$']] → q = ['a', '\\', 'x']) ∧
      Unescaped ['\\', 'é'] ∧ Unescaped ['\\', 'ê'] ∧ listing ['\\', 'é'] ≠ listing ['\\', 'ê'] := by
  have hshort {p : Text} (h : p.length < 4) (hn : ¬['\\', 'n'] <:+: p) (ht : ¬['\\', 't'] <:+: p) : Unescaped p := by
    rintro e he hpart
    cases he with
    | newline => exact hn hpart
    | tab => exact ht hpart
    | code => exact absurd hpart.length_le (Nat.not_le.2 h)
  have hx : Unescaped ['a', '\\', 'x'] := hshort (by decide) (by decide) (by decide)
  have hacute : Unescaped ['\\', 'é'] := hshort (by decide) (by decide) (by decide)
  have hcircumflex : Unescaped ['\\', 'ê'] := hshort (by decide) (by decide) (by decide)
  have hlisting : listing ['a', '\\', 'x'] = [['a', '\\', 'x', '$']] := by
    rw [listing, foldLine]
    rfl
  obtain ⟨hshown, htells, -⟩ := listing_tells_unescaped ['a', '\\', 'x']
  obtain ⟨-, -, hdiffer⟩ := listing_tells_unescaped ['\\', 'é']
  refine ⟨?_, fun q hq => ?_, hacute, hcircumflex, fun h => ?_⟩
  · rw [← hlisting]
    exact hshown 0 _ _ rfl rfl rfl
  · exact htells.2 ⟨by simp [IsPlain], hx⟩ q (hq.trans hlisting.symm)
  · exact absurd (hdiffer _ hacute hcircumflex (by simp) h) (by decide)

theorem backslash_n_listed_as_newline :
    listing ['\\', 'n'] = [['\\', 'n', '$']] ∧ listing ['\n'] = [['\\', 'n', '$']] ∧ ['\\', 'n'] ≠ ['\n'] := by
  refine ⟨?_, ?_, by decide⟩
  · rw [listing, foldLine]
    rfl
  · rw [listing, foldLine]
    rfl

end StreamEditor
