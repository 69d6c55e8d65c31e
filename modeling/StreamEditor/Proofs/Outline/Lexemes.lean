import Mathlib.Data.List.TakeWhile
import StreamEditor.Outline.Parser
import StreamEditor.Proofs.Dialect.Replacement

namespace StreamEditor.Outline

inductive IsLexeme : Text → Prop
  | single {c : Char} : c ∉ ['\\', '[', '{'] → IsLexeme [c]
  | escape (c : Char) : IsLexeme ['\\', c]
  | set {body : Text} : ']' ∉ body → IsLexeme ('[' :: (body ++ [']']))
  | interval {least : Text} {most : Option Text} : least ≠ [] → (∀ c ∈ least, Text.isDecimal c = true) →
    (∀ t ∈ most, ∀ c ∈ t, Text.isDecimal c = true) → IsLexeme (bounds least most)

inductive Lexed : Text → List Text → Prop
  | nil : Lexed [] []
  | backslash : Lexed ['\\'] [['\\']]
  | cons {w r : Text} {ws : List Text} : IsLexeme w → Lexed r ws → Lexed (w ++ r) (w :: ws)

lemma Lexed.flatten_eq {r : Text} {ws : List Text} (h : Lexed r ws) : ws.flatten = r := by
  induction h with
  | nil | backslash => rfl
  | cons _ _ ih => rw [List.flatten_cons, ih]

lemma lexed_flatten {ws : List Text} (h : ∀ w ∈ ws, IsLexeme w) : Lexed ws.flatten ws := by
  induction ws with
  | nil => exact .nil
  | cons w ws ih =>
    rw [List.forall_mem_cons] at h
    exact .cons h.1 (ih h.2)

namespace Token

def text : Token → Text
  | leaf n => n.text
  | mark c => [c]
  | bounds least most => Outline.bounds least most
  | opening => ['(']
  | closing => [')']
  | bar => ['|']
  | fault _ => []

def IsPlain : Token → Prop
  | leaf _ | mark _ | bounds _ _ => True
  | _ => False

inductive Fits : Token → Prop
  | plain {t : Token} : t.IsPlain → t.text ∉ [['('], [')'], ['|']] → Fits t
  | opening : Fits opening
  | closing : Fits closing
  | bar : Fits bar

namespace Fits

variable {t : Token} (h : t.Fits)
include h

lemma eq_opening (ht : t.text = ['(']) : t = .opening := by
  cases h with
  | plain _ hplain => simp [ht] at hplain
  | opening => rfl
  | closing | bar => cases ht

lemma eq_closing (ht : t.text = [')']) : t = .closing := by
  cases h with
  | plain _ hplain => simp [ht] at hplain
  | closing => rfl
  | opening | bar => cases ht

lemma isPlain (hopening : t.text ≠ ['(']) (hclosing : t.text ≠ [')']) (hbar : t.text ≠ ['|']) : t.IsPlain := by
  cases h with
  | plain hplain => exact hplain
  | opening => exact absurd rfl hopening
  | closing => exact absurd rfl hclosing
  | bar => exact absurd rfl hbar

end Fits

end Token

section

variable {previous : Option Char} {c : Char} {r rest : Text} {t : Token}

lemma bounds_eq_cons (least : Text) (most : Option Text) : ∃ t, bounds least most = '{' :: t := by
  cases most <;> exact ⟨_, rfl⟩

lemma eq_of_dropWhile_eq_cons {p : Char → Bool} (h : r.dropWhile p = c :: rest) :
    r = r.takeWhile p ++ c :: rest ∧ p c = false := by
  have hne : r.dropWhile p ≠ [] := by simp [h]
  have hhead := List.head_dropWhile_not p hne
  simp only [h, List.head_cons] at hhead
  refine ⟨?_, hhead⟩
  rw [← h, List.takeWhile_append_dropWhile]

lemma takeWhile_isDecimal {ds : Text} (hds : ∀ c ∈ ds, Text.isDecimal c = true) (hc : Text.isDecimal c = false)
    (rest : Text) : (ds ++ c :: rest).takeWhile Text.isDecimal = ds ∧
      (ds ++ c :: rest).dropWhile Text.isDecimal = c :: rest := by
  rw [List.takeWhile_append_of_pos hds, List.dropWhile_append_of_pos hds, List.takeWhile_cons_of_neg (by simp [hc]),
    List.dropWhile_cons_of_neg (by simp [hc]), List.append_nil]
  exact ⟨rfl, rfl⟩

lemma text_caret (previous : Option Char) : (caret previous).text = ['^'] := by
  rw [caret.eq_def]
  split <;> rfl

lemma text_dollar (rest : Text) : (dollar rest).text = ['$'] := by
  rw [dollar.eq_def]
  split <;> rfl

lemma text_plainToken (previous : Option Char) (c : Char) (rest : Text) : (plainToken previous c rest).text = [c] := by
  rw [plainToken]
  split_ifs with hany hcaret hdollar hopening hclosing hbar
  · rw [hany]
    rfl
  · rw [hcaret]
    exact text_caret previous
  · rw [hdollar]
    exact text_dollar rest
  · rw [hopening]
    rfl
  · rw [hclosing]
    rfl
  · rw [hbar]
    rfl
  · rfl
  · rfl

lemma fits_plainToken (previous : Option Char) (c : Char) (rest : Text) : (plainToken previous c rest).Fits := by
  have htext := text_plainToken previous c rest
  rw [plainToken] at htext ⊢
  split_ifs at htext ⊢ with hany hcaret hdollar hopening hclosing hbar
  · exact .plain trivial (by simp [htext, hany])
  · exact .plain trivial (by simp [htext, hcaret])
  · exact .plain trivial (by simp [htext, hdollar])
  · exact .opening
  · exact .closing
  · exact .bar
  · exact .plain trivial (by simp [htext, hopening, hclosing, hbar])
  · exact .plain trivial (by simp [htext, hopening, hclosing, hbar])

lemma nextToken_single (hc : c ∉ ['\\', '[', '{']) (rest : Text) :
    nextToken previous (c :: rest) = some (plainToken previous c rest, c, rest) := by
  simp only [List.mem_cons, List.not_mem_nil, or_false, not_or] at hc
  rw [nextToken]
  all_goals simp [hc]

lemma readBounds_bounds {least : Text} {most : Option Text} (hne : least ≠ [])
    (hleast : ∀ c ∈ least, Text.isDecimal c = true) (hmost : ∀ t ∈ most, ∀ c ∈ t, Text.isDecimal c = true)
    (rest : Text) : readBounds ((bounds least most).tail ++ rest) = some (least, most, rest) := by
  obtain ⟨d, ds, rfl⟩ := List.exists_cons_of_ne_nil hne
  cases most with
  | none =>
    obtain ⟨htake, hdrop⟩ := takeWhile_isDecimal hleast (show Text.isDecimal '}' = false by decide) rest
    have htail : (bounds (d :: ds) none).tail ++ rest = (d :: ds) ++ '}' :: rest := by simp [bounds]
    rw [htail, readBounds, htake, hdrop]
    rfl
  | some digits =>
    obtain ⟨htake, hdrop⟩ := takeWhile_isDecimal hleast (show Text.isDecimal ',' = false by decide)
      (digits ++ '}' :: rest)
    obtain ⟨htake', hdrop'⟩ := takeWhile_isDecimal (hmost digits rfl) (show Text.isDecimal '}' = false by decide) rest
    have htail : (bounds (d :: ds) (some digits)).tail ++ rest = (d :: ds) ++ ',' :: (digits ++ '}' :: rest) := by
      simp [bounds]
    simp only [htail, readBounds, htake, hdrop, hdrop', htake']

lemma of_readBounds {least : Text} {most : Option Text} (h : readBounds r = some (least, most, rest)) :
    least ≠ [] ∧ (∀ c ∈ least, Text.isDecimal c = true) ∧ (∀ t ∈ most, ∀ c ∈ t, Text.isDecimal c = true) ∧
      '{' :: r = bounds least most ++ rest := by
  have hdigits {t : Text} {c : Char} : c ∈ t.takeWhile Text.isDecimal → Text.isDecimal c = true :=
    List.mem_takeWhile_imp
  rw [readBounds] at h
  split at h
  · cases h
  · rename_i hdrop hne
    cases h
    refine ⟨hne, fun c => hdigits, by simp, ?_⟩
    simpa [bounds] using (eq_of_dropWhile_eq_cons hdrop).1
  · rename_i t hdrop hne
    split at h
    · rename_i hdrop'
      cases h
      refine ⟨hne, fun c => hdigits, ?_, ?_⟩
      · intro t ht c
        rw [← Option.mem_some.1 ht]
        exact hdigits
      · have hr := (eq_of_dropWhile_eq_cons hdrop).1
        have ht := (eq_of_dropWhile_eq_cons hdrop').1
        rw [ht] at hr
        simpa [bounds] using hr
    · cases h
  · cases h

lemma nextToken_of_isLexeme {w : Text} (hw : IsLexeme w) (previous : Option Char) (rest : Text) :
    ∃ t c, nextToken previous (w ++ rest) = some (t, c, rest) ∧ t.text = w ∧ t.Fits := by
  cases hw with
  | @single c hc => exact ⟨_, c, nextToken_single hc rest, text_plainToken _ _ _, fits_plainToken _ _ _⟩
  | escape c =>
    have htext : (Token.leaf (if Text.isAsciiDigit c then .reference c else .escaped c)).text = ['\\', c] := by
      split <;> rfl
    exact ⟨_, c, rfl, htext, .plain trivial (by simp [htext])⟩
  | @set body hbody =>
    have hlong : ∀ d ∈ body, decide (d ≠ ']') = true := by
      intro d hd
      simpa using ne_of_mem_of_not_mem hd hbody
    have htake : (body ++ ']' :: rest).takeWhile (· ≠ ']') = body := by
      rw [List.takeWhile_append_of_pos hlong, List.takeWhile_cons_of_neg (by simp), List.append_nil]
    have hdrop : (body ++ ']' :: rest).dropWhile (· ≠ ']') = ']' :: rest := by
      rw [List.dropWhile_append_of_pos hlong, List.dropWhile_cons_of_neg (by simp)]
    refine ⟨.leaf (.set body), ']', ?_, rfl, .plain trivial (by simp [Token.text, Node.text])⟩
    rw [List.cons_append, List.append_assoc, List.singleton_append, nextToken, hdrop, htake]
  | @interval least most hne hleast hmost =>
    obtain ⟨t, ht⟩ := bounds_eq_cons least most
    have hread := readBounds_bounds hne hleast hmost rest
    refine ⟨.bounds least most, '}', ?_, rfl, .plain trivial (by simp [Token.text, ht])⟩
    rw [ht, List.tail_cons] at hread
    rw [ht, List.cons_append, nextToken, hread]

lemma isLexeme_of_nextToken (h : nextToken previous r = some (t, c, rest)) (ht : ∀ e, t ≠ .fault e) :
    (∃ w, IsLexeme w ∧ r = w ++ rest) ∨ r = ['\\'] ∧ rest = [] := by
  rw [nextToken.eq_def] at h
  split at h
  · cases h
  · cases h
    exact .inr ⟨rfl, rfl⟩
  · cases h
    exact .inl ⟨_, .escape _, rfl⟩
  · rename_i u
    split at h
    · cases h
      exact absurd rfl (ht _)
    · rename_i hdrop
      cases h
      obtain ⟨hsplit, hbracket⟩ := eq_of_dropWhile_eq_cons hdrop
      obtain rfl : _ = ']' := by simpa using hbracket
      have hset : ']' ∉ u.takeWhile (· ≠ ']') := fun hmem => by simpa using List.mem_takeWhile_imp hmem
      refine .inl ⟨_, .set hset, ?_⟩
      simpa using hsplit
  · split at h
    · cases h
      exact absurd rfl (ht _)
    · rename_i hread
      cases h
      obtain ⟨hne, hleast, hmost, heq⟩ := of_readBounds hread
      exact .inl ⟨_, .interval hne hleast hmost, heq⟩
  · rename_i hlast hescape hset hinterval
    cases h
    refine .inl ⟨[c], .single ?_, rfl⟩
    simp only [List.mem_cons, List.not_mem_nil, or_false, not_or]
    exact ⟨Dialect.ne_backslash_of_unmatched hlast hescape, hset, hinterval⟩

lemma tokensFrom_nil (previous : Option Char) : tokensFrom previous [] = [] := by
  rw [tokensFrom]
  split
  · rfl
  · rename_i h
    cases h

lemma tokensFrom_eq_cons (h : nextToken previous r = some (t, c, rest)) :
    tokensFrom previous r = t :: tokensFrom (some c) rest := by
  rw [tokensFrom]
  split
  · rename_i h'
    rw [h] at h'
    cases h'
  · rename_i h'
    rw [h] at h'
    cases h'
    rfl

lemma eq_nil_of_nextToken (h : nextToken previous r = none) : r = [] := by
  rw [nextToken.eq_def] at h
  split at h
  · rfl
  · cases h
  · cases h
  · split at h <;> cases h
  · split at h <;> cases h
  · cases h

lemma tokensFrom_of_lexed {ws : List Text} (h : Lexed r ws) (previous : Option Char) :
    (tokensFrom previous r).map Token.text = ws ∧ ∀ t ∈ tokensFrom previous r, t.Fits := by
  induction h generalizing previous with
  | nil => simp [tokensFrom_nil]
  | backslash =>
    have hfits : (Token.leaf (.char '\\')).Fits := .plain trivial (by decide)
    rw [tokensFrom_eq_cons (show nextToken previous ['\\'] = _ from rfl), tokensFrom_nil, List.forall_mem_singleton]
    exact ⟨rfl, hfits⟩
  | @cons w r ws hw _ ih =>
    obtain ⟨t, c, hnext, htext, hfits⟩ := nextToken_of_isLexeme hw previous r
    obtain ⟨hmap, hall⟩ := ih (some c)
    rw [tokensFrom_eq_cons hnext, List.map_cons, htext, hmap, List.forall_mem_cons]
    exact ⟨rfl, hfits, hall⟩

lemma exists_lexed (h : ∀ e, .fault e ∉ tokensFrom previous r) : ∃ ws, Lexed r ws := by
  fun_induction tokensFrom previous r with
  | case1 previous r hnone =>
    rw [eq_nil_of_nextToken hnone]
    exact ⟨[], .nil⟩
  | case2 previous r t c rest hsome _ ih =>
    have ht (e : Error) : t ≠ .fault e := fun ht => h e (ht ▸ List.mem_cons_self)
    obtain ⟨ws, hws⟩ := ih fun e he => h e (List.mem_cons_of_mem _ he)
    rcases isLexeme_of_nextToken hsome ht with ⟨w, hw, rfl⟩ | ⟨rfl, -⟩
    · exact ⟨w :: ws, .cons hw hws⟩
    · exact ⟨_, .backslash⟩

lemma Lexed.iff_eq {ws : List Text} (h : Lexed r ws) (ws' : List Text) : Lexed r ws' ↔ ws' = ws := by
  constructor
  · intro h'
    rw [← (tokensFrom_of_lexed h none).1, ← (tokensFrom_of_lexed h' none).1]
  · rintro rfl
    exact h

end

end StreamEditor.Outline
