import Mathlib.Data.List.Chain
import StreamEditor.Fingerprint.Value
import StreamEditor.Proofs.Text.Encoding
import StreamEditor.Proofs.Text.Number

/-!
The encoding of plain values as a row of lexemes. A number is not told from one that follows it, nor
a text from anything that follows it, so that a text may be read as several rows; where this does not
happen, the encoding is that of one value only.
-/

namespace StreamEditor.Fingerprint

open Text (ofNumber ofInteger toUtf8 isAsciiDigit)

inductive Lexeme where
  | opening (length : Nat)
  | word (b : Option Bool)
  | number (n : Int)
  | text (t : Text)
  deriving DecidableEq, Repr

namespace Lexeme

def spelled : Lexeme → Text
  | opening n => 'L' :: ofNumber n
  | word none => "None".toList
  | word (some b) => (if b then "True" else "False").toList
  | number n => ofInteger n
  | text t => 's' :: t

def parts : Lexeme → Nat
  | opening n => n
  | _ => 0

def value (vs : List Value) : Lexeme → Value
  | opening _ => .list vs
  | word none => .none
  | word (some b) => .bool b
  | number n => .integer n
  | text t => .text t

/-- The end of the first lexeme can be seen when the second one follows. -/
def isParted : Lexeme → Lexeme → Bool
  | text _, _ => false
  | opening _, number n | number _, number n => n < 0
  | _, _ => true

end Lexeme

def spelling (xs : List Lexeme) : Text := xs.flatMap Lexeme.spelled

/-- The lexemes spell so many values in a row. -/
inductive Fills : Nat → List Lexeme → Prop where
  | nil : Fills 0 []
  | cons {n : Nat} {x : Lexeme} {xs : List Lexeme} (h : Fills (n + x.parts) xs) : Fills (n + 1) (x :: xs)

section Numerals

def EndsNumeral (t : Text) : Prop := ∀ c ∈ t.head?, isAsciiDigit c = false

lemma eq_or_lt_of_ofNumber_append {m n : Nat} {e : Text} (h : ofNumber m ++ e = ofNumber n) :
    m = n ∧ e = [] ∨ m < n ∧ e ≠ [] := by
  have hle : m ≤ n := by
    rw [← Text.toNumber_ofNumber m, ← Text.toNumber_ofNumber n, ← h]
    exact Text.toNumber_le_append _ _
  by_cases he : e = []
  · left
    rw [he, List.append_nil] at h
    have hmn := congrArg Text.toNumber h
    rw [Text.toNumber_ofNumber, Text.toNumber_ofNumber] at hmn
    exact ⟨hmn, he⟩
  · right
    refine ⟨Nat.lt_of_le_of_ne hle ?_, he⟩
    rintro rfl
    exact he (List.append_right_eq_self.1 h)

lemma exists_append_of_digits {ds e s t : Text} (hds : ∀ c ∈ ds, isAsciiDigit c = true)
    (ht : EndsNumeral t) (h : ds ++ s = e ++ t) : ∃ rest, ds ++ rest = e ∧ s = rest ++ t := by
  rcases List.append_eq_append_iff.1 h with ⟨rest, rfl, rfl⟩ | ⟨rest, rfl, rfl⟩
  · exact ⟨rest, rfl, rfl⟩
  · cases rest with
    | nil => exact ⟨[], by simp⟩
    | cons c rest =>
      have hc := ht c (by simp)
      rw [hds c (by simp)] at hc
      cases hc

lemma ofNumber_append_eq {m n : Nat} {s t : Text} (ht : EndsNumeral t)
    (h : ofNumber m ++ s = ofNumber n ++ t) :
    m = n ∧ s = t ∨ m < n ∧ ∃ e, e ≠ [] ∧ (∀ c ∈ e, isAsciiDigit c = true) ∧ s = e ++ t := by
  obtain ⟨e, he, rfl⟩ :=
    exists_append_of_digits (fun _ => Text.isAsciiDigit_of_mem_ofNumber) ht h
  rcases eq_or_lt_of_ofNumber_append he with ⟨hmn, rfl⟩ | ⟨hmn, hne⟩
  · exact .inl ⟨hmn, rfl⟩
  · have hdigits : ∀ c ∈ e, isAsciiDigit c = true := fun c hc =>
      Text.isAsciiDigit_of_mem_ofNumber (he ▸ List.mem_append_right (ofNumber m) hc)
    exact .inr ⟨hmn, e, hne, hdigits, rfl⟩

end Numerals

inductive Alike : Lexeme → Lexeme → Prop where
  | opening (m n : Nat) : Alike (.opening m) (.opening n)
  | word (b : Option Bool) : Alike (.word b) (.word b)
  | natural (m n : Nat) : Alike (.number (.ofNat m)) (.number (.ofNat n))
  | negative (m n : Nat) : Alike (.number (.negSucc m)) (.number (.negSucc n))
  | text (s t : Text) : Alike (.text s) (.text t)

namespace Lexeme

def mark : Lexeme → Char
  | opening _ => 'L'
  | word none => 'N'
  | word (some b) => if b then 'T' else 'F'
  | number (.ofNat _) => '0'
  | number (.negSucc _) => '-'
  | text _ => 's'

lemma exists_spelled_eq_cons (x : Lexeme) :
    ∃ c t, x.spelled = c :: t ∧ (if isAsciiDigit c then '0' else c) = x.mark := by
  match x with
  | opening _ | word none | word (some true) | word (some false) | number (.negSucc _) | text _ =>
    exact ⟨_, _, rfl, rfl⟩
  | number (.ofNat n) =>
    obtain ⟨c, t, hc⟩ := List.exists_cons_of_ne_nil (Text.ofNumber_ne_nil n)
    have hdigit : isAsciiDigit c = true :=
      Text.isAsciiDigit_of_mem_ofNumber (hc ▸ List.mem_cons_self)
    exact ⟨c, t, hc, if_pos hdigit⟩

lemma alike_of_mark_eq {x y : Lexeme} (h : x.mark = y.mark) : Alike x y := by
  match x, y with
  | opening m, opening n => exact .opening m n
  | number (.ofNat m), number (.ofNat n) => exact .natural m n
  | number (.negSucc m), number (.negSucc n) => exact .negative m n
  | text s, text t => exact .text s t
  | word none, word none | word (some true), word (some true) | word (some false), word (some false) =>
    exact .word _

lemma alike_of_append_eq {x y : Lexeme} {s t : Text} (h : x.spelled ++ s = y.spelled ++ t) :
    Alike x y := by
  obtain ⟨c, u, hx, hxmark⟩ := x.exists_spelled_eq_cons
  obtain ⟨d, v, hy, hymark⟩ := y.exists_spelled_eq_cons
  rw [hx, hy] at h
  obtain ⟨rfl, -⟩ := List.cons.inj h
  exact alike_of_mark_eq (hxmark.symm.trans hymark)

lemma spelled_ne_nil (x : Lexeme) : x.spelled ≠ [] := by
  obtain ⟨c, t, hx, -⟩ := x.exists_spelled_eq_cons
  simp [hx]

lemma exists_eq_number {x : Lexeme} {c : Char} {t : Text} (hx : x.spelled = c :: t)
    (hc : isAsciiDigit c = true) : ∃ n, x = number (.ofNat n) := by
  obtain ⟨d, u, hd, hmark⟩ := x.exists_spelled_eq_cons
  obtain ⟨rfl, -⟩ := List.cons.inj (hx.symm.trans hd)
  rw [if_pos hc] at hmark
  have halike : Alike x (number (.ofNat 0)) := alike_of_mark_eq hmark.symm
  cases halike with
  | natural m n => exact ⟨m, rfl⟩

def isNumeral : Lexeme → Bool
  | opening _ | number _ => true
  | _ => false

lemma endsNumeral_spelled {x y : Lexeme} (hx : x.isNumeral) (h : x.isParted y) (t : Text) :
    EndsNumeral (y.spelled ++ t) := by
  obtain ⟨c, u, hy, -⟩ := y.exists_spelled_eq_cons
  rw [hy]
  rintro c' ⟨⟩
  by_contra hc
  obtain ⟨n, rfl⟩ := exists_eq_number hy (by simpa using hc)
  cases x with
  | opening _ | number _ =>
    simp only [isParted, decide_eq_true_iff] at h
    exact absurd h (by simp)
  | word _ | text _ => cases hx

end Lexeme

@[simp] lemma spelling_cons (x : Lexeme) (xs : List Lexeme) :
    spelling (x :: xs) = x.spelled ++ spelling xs := rfl

lemma endsNumeral_spelling {x : Lexeme} {xs : List Lexeme} (hx : x.isNumeral)
    (h : (x :: xs).IsChain (·.isParted ·)) : EndsNumeral (spelling xs) := by
  cases h with
  | singleton => simp [EndsNumeral, spelling]
  | cons_cons h => exact Lexeme.endsNumeral_spelled hx h _

namespace Fills

lemma drop_digits {n : Nat} {xs : List Lexeme} {e t : Text} (h : Fills n xs)
    (he : ∀ c ∈ e, isAsciiDigit c = true) (ht : EndsNumeral t) (hs : spelling xs = e ++ t) :
    ∃ m ys, Fills m ys ∧ spelling ys = t ∧ m ≤ n ∧ (e ≠ [] → m < n) := by
  induction h generalizing e with
  | nil =>
    obtain ⟨rfl, rfl⟩ := List.append_eq_nil_iff.1 hs.symm
    exact ⟨0, [], .nil, rfl, Nat.le_refl 0, by simp⟩
  | @cons n x xs h ih =>
    cases e with
    | nil => exact ⟨n + 1, x :: xs, .cons h, hs, Nat.le_refl _, by simp⟩
    | cons c e =>
      obtain ⟨d, u, hx, -⟩ := x.exists_spelled_eq_cons
      rw [spelling_cons, hx] at hs
      obtain ⟨rfl, -⟩ := List.cons.inj hs
      obtain ⟨k, rfl⟩ := Lexeme.exists_eq_number hx (he d (by simp))
      rw [← hx] at hs
      obtain ⟨rest, hrest, hxs⟩ :=
        exists_append_of_digits (fun _ => Text.isAsciiDigit_of_mem_ofNumber) ht hs
      obtain ⟨m, ys, hm, hys, hle, -⟩ :=
        ih (fun c hc => he c (hrest ▸ List.mem_append_right _ hc)) hxs
      exact ⟨m, ys, hm, hys, Nat.le_succ_of_le hle, fun _ => Nat.lt_succ_of_le hle⟩

/-- A numeral that ends early leaves fewer values to come than the whole one does. -/
lemma eq_of_numeral {m n p q k l : Nat} {xs ys : List Lexeme} (hx : Fills (m + p) xs) (hmn : m ≤ n)
    (hlt : k < l → p ≤ q) (heq : k = l → p = q) (hend : EndsNumeral (spelling ys))
    (hs : ofNumber k ++ spelling xs = ofNumber l ++ spelling ys)
    (ih : ∀ {a zs}, Fills a zs → a ≤ n + q → spelling zs = spelling ys → a = n + q ∧ zs = ys) :
    k = l ∧ m = n ∧ xs = ys := by
  rcases ofNumber_append_eq hend hs with ⟨hkl, hxs⟩ | ⟨hkl, e, hne, he, hxs⟩
  · have hpq := heq hkl
    obtain ⟨hall, rfl⟩ := ih hx (by omega) hxs
    exact ⟨hkl, by omega, rfl⟩
  · have hpq := hlt hkl
    obtain ⟨a, zs, hzs, hspell, -, hfewer⟩ := hx.drop_digits he hend hxs
    have ha := hfewer hne
    obtain ⟨hall, -⟩ := ih hzs (by omega) hspell
    omega

lemma eq_of_spelling_eq {m n : Nat} {xs ys : List Lexeme} (hx : Fills m xs) (hy : Fills n ys)
    (hmn : m ≤ n) (hparted : ys.IsChain (·.isParted ·)) (hs : spelling xs = spelling ys) :
    m = n ∧ xs = ys := by
  induction hy generalizing m xs with
  | nil =>
    cases hx with
    | nil => exact ⟨rfl, rfl⟩
    | cons h => exact absurd (List.append_eq_nil_iff.1 hs).1 (Lexeme.spelled_ne_nil _)
  | @cons n y ys hy ih =>
    cases hx with
    | nil => exact absurd (List.append_eq_nil_iff.1 hs.symm).1 (Lexeme.spelled_ne_nil _)
    | @cons m x xs hx =>
      have hmn : m ≤ n := Nat.le_of_succ_le_succ hmn
      have ih {a : Nat} {zs : List Lexeme} (hz : Fills a zs) (ha : a ≤ n + y.parts) :=
        ih hz ha hparted.tail
      rw [spelling_cons, spelling_cons] at hs
      have halike := Lexeme.alike_of_append_eq hs
      cases halike with
      | opening k l =>
        obtain ⟨rfl, rfl, rfl⟩ := eq_of_numeral hx hmn Nat.le_of_lt id
          (endsNumeral_spelling rfl hparted) (List.cons.inj hs).2 ih
        exact ⟨rfl, rfl⟩
      | word b =>
        obtain ⟨rfl, rfl⟩ := ih hx hmn (List.append_cancel_left hs)
        exact ⟨rfl, rfl⟩
      | natural k l =>
        obtain ⟨rfl, rfl, rfl⟩ := eq_of_numeral hx hmn (fun _ => Nat.le_refl 0) (fun _ => rfl)
          (endsNumeral_spelling rfl hparted) hs ih
        exact ⟨rfl, rfl⟩
      | negative k l =>
        obtain ⟨hkl, rfl, rfl⟩ := eq_of_numeral hx hmn (fun _ => Nat.le_refl 0) (fun _ => rfl)
          (endsNumeral_spelling rfl hparted) (List.cons.inj hs).2 ih
        exact ⟨rfl, by rw [Nat.succ.inj hkl]⟩
      | text s t =>
        -- a text is the last lexeme, so that the other row has no more than one value to come either
        cases hparted with
        | cons_cons h => cases h
        | singleton =>
          cases hy
          cases Nat.le_zero.1 hmn
          cases hx
          simpa [spelling, Lexeme.spelled] using hs

end Fills

def candidates (t : Text) : List Lexeme :=
  [.opening (Text.toNumber t.tail), .word none, .word (some true), .word (some false),
    .number (Text.toNumber t), .number (-Text.toNumber t.tail), .text t.tail]

lemma mem_candidates (x : Lexeme) : x ∈ candidates x.spelled := by
  match x with
  | .opening n => simp [candidates, Lexeme.spelled, Text.toNumber_ofNumber]
  | .word none | .word (some true) | .word (some false) | .text t => simp [candidates, Lexeme.spelled]
  | .number (.ofNat n) => simp [candidates, Lexeme.spelled, ofInteger, Text.toNumber_ofNumber]
  | .number (.negSucc n) =>
    have hneg : Int.negSucc n = -((n + 1 : Nat) : Int) := rfl
    simp [candidates, Lexeme.spelled, ofInteger, Text.toNumber_ofNumber, hneg]

/-- The rows of lexemes that spell so many values and a text, some of which is taken already. -/
def rows (n : Nat) (taken : Text) : Text → List (List Lexeme)
  | [] => if n = 0 ∧ taken = [] then [[]] else []
  | c :: t =>
    rows n (taken ++ [c]) t ++
      match n with
      | 0 => []
      | n + 1 =>
        ((candidates (taken ++ [c])).filter (·.spelled = taken ++ [c])).flatMap fun x =>
          (rows (n + x.parts) [] t).map (x :: ·)

lemma mem_rows_nil_iff {n : Nat} {taken : Text} {xs : List Lexeme} :
    xs ∈ rows n taken [] ↔ (n = 0 ∧ taken = []) ∧ xs = [] := by
  rw [rows]
  split
  case isTrue h => simp [h]
  case isFalse h => simp [h]

lemma mem_rows_cons_iff {n : Nat} {taken t : Text} {c : Char} {xs : List Lexeme} :
    xs ∈ rows n taken (c :: t) ↔ xs ∈ rows n (taken ++ [c]) t ∨
      ∃ m x ys, n = m + 1 ∧ xs = x :: ys ∧ x.spelled = taken ++ [c] ∧ ys ∈ rows (m + x.parts) [] t := by
  cases n with
  | zero => simp [rows]
  | succ n =>
    rw [rows, List.mem_append]
    refine or_congr_right ?_
    simp only [List.mem_flatMap, List.mem_filter, List.mem_map, decide_eq_true_iff]
    constructor
    · rintro ⟨x, ⟨-, hx⟩, ys, hys, rfl⟩
      exact ⟨n, x, ys, rfl, rfl, hx, hys⟩
    · rintro ⟨m, x, ys, hm, rfl, hx, hys⟩
      obtain rfl := Nat.succ.inj hm
      exact ⟨x, ⟨hx ▸ mem_candidates x, hx⟩, ys, hys, rfl⟩

lemma mem_rows_of_taken {n : Nat} {taken t : Text} {xs : List Lexeme} :
    xs ∈ rows n taken t ↔
      Fills n xs ∧ spelling xs = taken ++ t ∧ ∀ x ∈ xs.head?, taken.length < x.spelled.length := by
  induction t generalizing n taken xs with
  | nil =>
    rw [mem_rows_nil_iff]
    constructor
    · rintro ⟨⟨rfl, rfl⟩, rfl⟩
      exact ⟨.nil, rfl, by simp⟩
    · rintro ⟨hfills, hspelling, hlonger⟩
      cases hfills with
      | nil => exact ⟨⟨rfl, by simpa [spelling] using hspelling.symm⟩, rfl⟩
      | @cons n x xs _ =>
        have hlength := congrArg List.length hspelling
        have hx := hlonger x rfl
        simp at hlength
        omega
  | cons c t ih =>
    rw [mem_rows_cons_iff, ih]
    constructor
    · rintro (⟨hfills, hspelling, hlonger⟩ | ⟨m, x, ys, rfl, rfl, hx, hys⟩)
      · refine ⟨hfills, by simpa using hspelling, fun x hx => ?_⟩
        have hlong := hlonger x hx
        rw [List.length_append] at hlong
        exact Nat.lt_of_le_of_lt (Nat.le_add_right ..) hlong
      · obtain ⟨hfills, hspelling, -⟩ := ih.1 hys
        refine ⟨.cons hfills, ?_, ?_⟩
        · simp [hx, hspelling]
        · rintro _ ⟨⟩
          simp [hx]
    · rintro ⟨hfills, hspelling, hlonger⟩
      cases hfills with
      | nil => exact absurd hspelling.symm (by simp [spelling])
      | @cons m x xs hfills =>
        have hx := hlonger x rfl
        rw [spelling_cons, List.append_cons taken c t] at hspelling
        rcases Nat.lt_or_eq_of_le hx with hx | hx
        · refine .inl ⟨.cons hfills, hspelling, ?_⟩
          rintro _ ⟨⟩
          simpa using hx
        · obtain ⟨hspelled, hrest⟩ := List.append_inj hspelling (by simpa using hx.symm)
          refine .inr ⟨m, x, xs, rfl, rfl, hspelled, ih.2 ⟨hfills, hrest, fun y _ => ?_⟩⟩
          exact List.length_pos_iff.2 y.spelled_ne_nil

lemma mem_rows_iff {n : Nat} {t : Text} {xs : List Lexeme} :
    xs ∈ rows n [] t ↔ Fills n xs ∧ spelling xs = t := by
  rw [mem_rows_of_taken, List.nil_append]
  refine and_congr_right fun _ => and_iff_left fun x _ => ?_
  exact List.length_pos_iff.2 x.spelled_ne_nil

namespace Value

mutual

def isPlain (depth : Nat) : Value → Bool
  | none | bool _ | integer _ | text _ => true
  | list vs => depth < deepest && vs.length ≤ longest && arePlain (depth + 1) vs
  | _ => false

def arePlain (depth : Nat) : List Value → Bool
  | [] => true
  | v :: vs => v.isPlain depth && arePlain depth vs

end

mutual

def lexemes : Value → List Lexeme
  | none => [.word .none]
  | bool b => [.word (some b)]
  | integer n => [.number n]
  | text t => [.text t]
  | list vs => .opening vs.length :: itemLexemes vs
  | _ => []

def itemLexemes : List Value → List Lexeme
  | [] => []
  | v :: vs => v.lexemes ++ itemLexemes vs

end

mutual

lemma bytesAt_eq : ∀ {depth : Nat} {v : Value}, v.isPlain depth →
    v.bytesAt depth = toUtf8 (spelling v.lexemes)
  | _, none, _ | _, bool true, _ | _, bool false, _ => by simp [bytesAt, lexemes, spelling, Lexeme.spelled, ascii]
  | _, integer n, _ | _, text t, _ => by simp [bytesAt, lexemes, spelling, Lexeme.spelled]
  | depth, list vs, h => by
    rw [isPlain, Bool.and_eq_true, Bool.and_eq_true, decide_eq_true_iff, decide_eq_true_iff] at h
    rw [bytesAt, itemBytes_eq h.2 h.1.1 h.1.2]
    simp [lexemes, spelling, Lexeme.spelled, lengthBytes, ascii, toUtf8]

lemma itemBytes_eq : ∀ {depth n : Nat} {vs : List Value}, arePlain (depth + 1) vs →
    depth < deepest → vs.length ≤ n → itemBytes depth n vs = toUtf8 (spelling (itemLexemes vs))
  | _, 0, [], _, _, _ | _, _ + 1, [], _, _, _ => by simp [itemBytes, itemLexemes, spelling, toUtf8]
  | depth, n + 1, v :: vs, h, hdepth, hn => by
    rw [arePlain, Bool.and_eq_true] at h
    rw [itemBytes, if_neg (by omega), bytesAt_eq h.1, itemBytes_eq h.2 hdepth (by simpa using hn)]
    simp [itemLexemes, spelling, toUtf8]

end

mutual

lemma fills_lexemes_append : ∀ {depth n : Nat} {v : Value} {xs : List Lexeme}, v.isPlain depth →
    Fills n xs → Fills (n + 1) (v.lexemes ++ xs)
  | _, _, none, _, _, h | _, _, bool _, _, _, h | _, _, integer _, _, _, h | _, _, text _, _, _, h =>
    .cons h
  | _, _, list vs, _, hv, h => by
    rw [isPlain, Bool.and_eq_true] at hv
    exact .cons (fills_itemLexemes_append hv.2 h)

lemma fills_itemLexemes_append : ∀ {depth n : Nat} {vs : List Value} {xs : List Lexeme},
    arePlain depth vs → Fills n xs → Fills (n + vs.length) (itemLexemes vs ++ xs)
  | _, _, [], _, _, h => h
  | _, _, v :: vs, _, hvs, h => by
    rw [arePlain, Bool.and_eq_true] at hvs
    rw [itemLexemes, List.append_assoc]
    exact fills_lexemes_append hvs.1 (fills_itemLexemes_append hvs.2 h)

end

lemma itemLexemes_append (us vs : List Value) : itemLexemes (us ++ vs) = itemLexemes us ++ itemLexemes vs := by
  induction us with
  | nil => rfl
  | cons u us ih => rw [List.cons_append, itemLexemes, itemLexemes, ih, List.append_assoc]

lemma lexemes_value {x : Lexeme} {vs : List Value} (h : vs.length = x.parts) :
    (x.value vs).lexemes = x :: itemLexemes vs := by
  match x with
  | .opening n =>
    obtain rfl : vs.length = n := h
    rfl
  | .word .none | .word (some _) | .number _ | .text _ =>
    obtain rfl := List.eq_nil_of_length_eq_zero h
    rfl

def build : List Lexeme → List Value
  | [] => []
  | x :: xs => x.value ((build xs).take x.parts) :: (build xs).drop x.parts

lemma lexemes_build {n : Nat} {xs : List Lexeme} (h : Fills n xs) :
    (build xs).length = n ∧ itemLexemes (build xs) = xs := by
  induction h with
  | nil => exact ⟨rfl, rfl⟩
  | @cons n x xs h ih =>
    obtain ⟨hlength, hitems⟩ := ih
    have htake : ((build xs).take x.parts).length = x.parts := by
      rw [List.length_take, hlength, Nat.min_eq_left (Nat.le_add_left ..)]
    constructor
    · rw [build, List.length_cons, List.length_drop, hlength, Nat.add_sub_cancel]
    · rw [build, itemLexemes, lexemes_value htake, List.cons_append, ← itemLexemes_append,
        List.take_append_drop, hitems]

mutual

lemma build_lexemes_append : ∀ {depth : Nat} {v : Value} {xs : List Lexeme}, v.isPlain depth →
    build (v.lexemes ++ xs) = v :: build xs
  | _, none, _, _ | _, bool _, _, _ | _, integer _, _, _ | _, text _, _, _ => rfl
  | _, list vs, xs, hv => by
    rw [isPlain, Bool.and_eq_true] at hv
    rw [lexemes, List.cons_append, build, build_itemLexemes_append hv.2]
    simp [Lexeme.parts, Lexeme.value]

lemma build_itemLexemes_append : ∀ {depth : Nat} {vs : List Value} {xs : List Lexeme},
    arePlain depth vs → build (itemLexemes vs ++ xs) = vs ++ build xs
  | _, [], _, _ => rfl
  | _, v :: vs, xs, hvs => by
    rw [arePlain, Bool.and_eq_true] at hvs
    rw [itemLexemes, List.append_assoc, build_lexemes_append hvs.1, build_itemLexemes_append hvs.2,
      List.cons_append]

end

lemma build_lexemes {depth : Nat} {v : Value} (hv : v.isPlain depth) : build v.lexemes = [v] := by
  simpa [build] using @build_lexemes_append depth v [] hv

lemma fills_lexemes {depth : Nat} {v : Value} (hv : v.isPlain depth) : Fills 1 v.lexemes := by
  simpa using fills_lexemes_append hv .nil

/-- The plain values that a text can be read as. -/
def readings (t : Text) : List Value := ((rows 1 [] t).flatMap build).filter (isPlain 0)

lemma mem_readings_iff {v : Value} {t : Text} :
    v ∈ readings t ↔ v.isPlain 0 ∧ v.encode = toUtf8 t := by
  rw [readings, List.mem_filter, List.mem_flatMap]
  constructor
  · rintro ⟨⟨xs, hxs, hv⟩, hplain⟩
    obtain ⟨hfills, rfl⟩ := mem_rows_iff.1 hxs
    obtain ⟨hlength, hitems⟩ := lexemes_build hfills
    obtain ⟨w, hw⟩ := List.length_eq_one_iff.1 hlength
    obtain rfl := List.mem_singleton.1 (hw ▸ hv)
    have hlexemes : v.lexemes = xs := by
      rw [← hitems, hw, itemLexemes, itemLexemes, List.append_nil]
    exact ⟨hplain, hlexemes ▸ bytesAt_eq hplain⟩
  · rintro ⟨hplain, hencode⟩
    have hspelling : spelling v.lexemes = t :=
      Text.toUtf8_injective ((bytesAt_eq hplain).symm.trans hencode)
    refine ⟨⟨v.lexemes, mem_rows_iff.2 ⟨fills_lexemes hplain, hspelling⟩, ?_⟩, hplain⟩
    rw [build_lexemes hplain]
    exact List.mem_singleton_self v

/-- A plain value shares its encoding with the plain values that its text can be read as, and with no
others. It is the only one of them if each of its lexemes is told from the next. -/
theorem encode_eq_iff_mem_readings {u v : Value} (hu : u.isPlain 0) (hv : v.isPlain 0) :
    (u.encode = v.encode ↔ u ∈ readings (spelling v.lexemes)) ∧
      (v.lexemes.IsChain (·.isParted ·) → (u.encode = v.encode ↔ u = v)) := by
  have hwritten : v.encode = toUtf8 (spelling v.lexemes) := bytesAt_eq hv
  have hread : u.encode = v.encode ↔ u ∈ readings (spelling v.lexemes) := by
    rw [mem_readings_iff, hwritten, and_iff_right hu]
  refine ⟨hread, fun hparted => ⟨fun h => ?_, congrArg encode⟩⟩
  have hspelling : spelling u.lexemes = spelling v.lexemes :=
    Text.toUtf8_injective ((bytesAt_eq hu).symm.trans (h.trans hwritten))
  obtain ⟨-, hlexemes⟩ :=
    (fills_lexemes hu).eq_of_spelling_eq (fills_lexemes hv) (Nat.le_refl 1) hparted hspelling
  have hbuilt := congrArg build hlexemes
  rw [build_lexemes hu, build_lexemes hv] at hbuilt
  exact List.singleton_inj.1 hbuilt

theorem encode_eq_iff_mem_readings_sample :
    (list [list [none, integer 41], integer (-1), bool true, text ['s', '1']]).encode ≠
      (list [list [none, integer 4, integer (-11)], bool true, text ['s', '1']]).encode := by
  refine mt ((encode_eq_iff_mem_readings (by decide) (by decide)).2 (by decide)).1 ?_
  simp

-- `L15` can be read in one way only, `L2111` in two.
example : rows 1 [] ['L', '1', '5'] = [[.opening 1, .number 5]] ∧
    rows 1 [] ['L', '2', '1', '1', '1'] =
      [[.opening 2, .number 11, .number 1], [.opening 2, .number 1, .number 11]] := by decide +kernel

theorem encode_collides :
    let u := list [integer 1, integer 11]
    let v := list [integer 11, integer 1]
    (u.isPlain 0 ∧ v.isPlain 0 ∧ u.encode = v.encode ∧ u ≠ v) ∧
      (list [integer 111111111111]).encode = (list (List.replicate 11 (integer 1))).encode ∧
      (list [text [], text ['s']]).encode = (list [text ['s'], text []]).encode := by
  refine ⟨⟨by decide, by decide, by decide +kernel, by simp⟩, ?_, ?_⟩ <;> decide +kernel

end Value

end StreamEditor.Fingerprint
