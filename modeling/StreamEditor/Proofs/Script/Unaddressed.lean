import StreamEditor.Proofs.Script.Extension
import StreamEditor.Proofs.Text.Number

/-! What is taken from a line where there is no address. A number that is zero and the backslash of a regexp that is not
closed are taken and then are no address. -/

namespace StreamEditor

namespace Script

def Takes (text : Text) (i j : Nat) (t : Text) : Prop := j = i + t.length ∧ text.drop i = t ++ text.drop j

def BlanksOnly (t : Text) : Prop :=
  ∃ blanks : Text, (∀ c ∈ blanks, Text.isBlank c = true) ∧ (t = blanks ∨ t = blanks ++ ['!'])

section

variable {text t u : Text} {i j k : Nat}

lemma takes_nil (text : Text) (i : Nat) : Takes text i i [] := ⟨rfl, rfl⟩

lemma Takes.append (h : Takes text i j t) (h' : Takes text j k u) : Takes text i k (t ++ u) := by
  obtain ⟨rfl, ht⟩ := h
  obtain ⟨rfl, hu⟩ := h'
  refine ⟨by rw [List.length_append, Nat.add_assoc], ?_⟩
  rw [ht, hu, List.append_assoc]

lemma takes_takeWhile (p : Char → Bool) (text : Text) (i : Nat) :
    Takes text i (i + ((text.drop i).takeWhile p).length) ((text.drop i).takeWhile p) := by
  refine ⟨rfl, ?_⟩
  rw [← List.drop_drop, drop_length_takeWhile, List.takeWhile_append_dropWhile]

lemma takes_getElem? {c : Char} (h : text[i]? = some c) : Takes text i (i + 1) [c] := by
  obtain ⟨hi, hc⟩ := List.getElem?_eq_some_iff.1 h
  exact ⟨rfl, by rw [List.drop_eq_getElem_cons hi, hc]; rfl⟩

lemma takes_skipBlanks (text : Text) (i : Nat) :
    ∃ blanks : Text, (∀ c ∈ blanks, Text.isBlank c = true) ∧ Takes text i (skipBlanks text i) blanks :=
  ⟨_, fun _ hc => List.mem_takeWhile_imp hc, takes_takeWhile Text.isBlank text i⟩

lemma takes_number {n : Option Nat} (h : number text i = .ok (j, n)) :
    Takes text i j ((text.drop i).takeWhile Text.isAsciiDigit) ∧
      (n.getD 0 = Text.toNumber ((text.drop i).takeWhile Text.isAsciiDigit)) := by
  rw [number] at h
  have htakes := takes_takeWhile Text.isAsciiDigit text i
  cases hds : (text.drop i).takeWhile Text.isAsciiDigit with
  | nil =>
    rw [hds] at h
    cases h
    exact ⟨takes_nil text i, rfl⟩
  | cons d ds =>
    rw [hds] at h htakes
    dsimp only at h
    split at h
    · cases h
    · cases h
      exact ⟨htakes, rfl⟩

lemma eq_of_regexp_none {delim : Option Char} (h : regexp text i delim = .ok (j, none)) : j = i := by
  rw [regexp] at h
  cases hdrop : text.drop i with
  | nil =>
    rw [hdrop] at h
    cases h
    rfl
  | cons c body =>
    rw [hdrop] at h
    dsimp only at h
    split at h
    · obtain ⟨n, -, h⟩ := bind_eq_ok.1 h
      cases n with
      | none =>
        cases h
        rfl
      | some n => cases h
    · cases h
      rfl

lemma of_marked_none (h : marked text i = .ok (j, none)) :
    text[i]? = some '\\' ∧ j = i + 1 ∨ text[i]? ≠ some '\\' ∧ j = i := by
  have hnone {delim : Option Char} {i : Nat} (h : (regexp text i delim).map (lettered text) = .ok (j, none)) :
      j = i := by
    obtain ⟨⟨k, _ | source⟩, hr, hk⟩ := map_eq_ok.1 h
    · cases hk
      exact eq_of_regexp_none hr
    · rw [lettered] at hk
      split at hk <;> cases hk
  rw [marked] at h
  split at h
  · cases h
  · split at h <;> rename_i hmark
    · exact .inl ⟨hmark, hnone h⟩
    · exact .inr ⟨hmark, hnone h⟩

-- The digits are taken before the number is looked at, and so is the backslash before the regexp is.
lemma of_address_none (h : address text i = .ok (j, none)) :
    ∃ zeros mark : Text, Takes text i j (zeros ++ mark) ∧ (∀ c ∈ zeros, c = '0') ∧
      zeros = (text.drop i).takeWhile Text.isAsciiDigit ∧
      (mark = ['\\'] ∧ text[i + zeros.length]? = some '\\' ∨ mark = [] ∧ text[i + zeros.length]? ≠ some '\\') := by
  rw [address_eq] at h
  obtain ⟨⟨k, n⟩, hn, h⟩ := bind_eq_ok.1 h
  obtain ⟨htakes, hvalue⟩ := takes_number hn
  have hdigits : ∀ d ∈ (text.drop i).takeWhile Text.isAsciiDigit, Text.isAsciiDigit d = true :=
    fun _ hd => List.mem_takeWhile_imp hd
  obtain ⟨hzero, hmarked⟩ : n.getD 0 = 0 ∧ marked text k = .ok (j, none) := by
    rcases n with _ | _ | n
    · exact ⟨rfl, h⟩
    · exact ⟨rfl, h⟩
    · cases h
  have hzeros := (Text.toNumber_eq_zero hdigits).1 (hvalue.symm.trans hzero)
  obtain ⟨rfl, -⟩ := id htakes
  rcases of_marked_none hmarked with ⟨hmark, rfl⟩ | ⟨hmark, rfl⟩
  · exact ⟨_, _, htakes.append (takes_getElem? hmark), hzeros, rfl, .inl ⟨rfl, hmark⟩⟩
  · exact ⟨_, _, htakes.append (takes_nil _ _), hzeros, rfl, .inr ⟨rfl, hmark⟩⟩

lemma eq_iff_of_address_none (h : address text i = .ok (j, none)) :
    j = i ↔ text[i]? ≠ some '0' ∧ text[i]? ≠ some '\\' := by
  obtain ⟨zeros, mark, ⟨rfl, hdrop⟩, hzeros, htake, hmark⟩ := of_address_none h
  have hhead : text[i]? = (zeros ++ mark ++ text.drop (i + (zeros ++ mark).length)).head? := by
    rw [← hdrop, List.head?_drop]
  cases zeros with
  | cons d zeros =>
    obtain rfl : d = '0' := hzeros d List.mem_cons_self
    refine iff_of_false (by simp) ?_
    rw [hhead]
    simp
  | nil =>
    have hdigit : text[i]? ≠ some '0' := by
      intro hzero
      rw [← List.head?_drop] at hzero
      obtain ⟨rest, hrest⟩ := List.head?_eq_some_iff.1 hzero
      rw [hrest] at htake
      cases htake
    rcases hmark with ⟨rfl, hmark⟩ | ⟨rfl, hmark⟩
    · exact iff_of_false (by simp) fun hnot => hnot.2 hmark
    · exact iff_of_true rfl ⟨hdigit, hmark⟩

lemma takes_negation (text : Text) (i : Nat) :
    Takes text i (negation text i).1 (if (negation text i).2 then ['!'] else []) := by
  rw [negation]
  by_cases hmark : text[i]? = some '!'
  · rw [if_pos hmark]
    exact takes_getElem? hmark
  · rw [if_neg hmark]
    exact takes_nil text i

lemma of_addresses_none {negated : Bool} (h : addresses text i = .ok (j, none, none, negated)) :
    ∃ k, address text (skipBlanks text i) = .ok (k, none) ∧ ∃ after : Text, (∀ c ∈ after, Text.isBlank c = true) ∧
      Takes text k j (after ++ if negated then ['!'] else []) := by
  rw [addresses_eq] at h
  obtain ⟨⟨k, first⟩, ha, h⟩ := bind_eq_ok.1 h
  obtain ⟨⟨l, second⟩, hb, h⟩ := bind_eq_ok.1 h
  cases h
  refine ⟨k, ha, ?_⟩
  have hl : l = skipBlanks text k := by
    rw [rangeEnd] at hb
    split at hb
    · cases hb
    · cases hb
      rfl
  obtain ⟨blanks, hblanks, htakes⟩ := takes_skipBlanks text k
  obtain ⟨more, hmore, htakes'⟩ := takes_skipBlanks text l
  refine ⟨blanks ++ more, List.forall_mem_append.2 ⟨hblanks, hmore⟩, ?_⟩
  rw [← hl] at htakes
  exact (htakes.append htakes').append (takes_negation text _)

lemma BlanksOnly.of_mem {c : Char} (h : BlanksOnly t) (hc : c ∈ t) : Text.isBlank c = true ∨ c = '!' := by
  obtain ⟨blanks, hblanks, rfl | rfl⟩ := h
  · exact .inl (hblanks c hc)
  · exact (List.mem_append.1 hc).imp (hblanks c) List.mem_singleton.1

lemma blanksOnly_iff {before skipped after stop : Text} (hbefore : ∀ c ∈ before, Text.isBlank c = true)
    (hskipped : ∀ c ∈ skipped, c = '0' ∨ c = '\\') (hafter : ∀ c ∈ after, Text.isBlank c = true)
    (hstop : stop = [] ∨ stop = ['!']) : BlanksOnly (before ++ skipped ++ (after ++ stop)) ↔ skipped = [] := by
  constructor
  · intro h
    refine List.eq_nil_iff_forall_not_mem.2 fun c hc => ?_
    have hblank := h.of_mem (c := c) (by simp [hc])
    rcases hskipped c hc with rfl | rfl
    · exact absurd hblank (by decide)
    · exact absurd hblank (by decide)
  · rintro rfl
    rw [List.append_nil, ← List.append_assoc]
    refine ⟨before ++ after, List.forall_mem_append.2 ⟨hbefore, hafter⟩, ?_⟩
    rcases hstop with rfl | rfl
    · exact .inl (List.append_nil _)
    · exact .inr rfl

lemma takeWhile_digits_eq_nil (h : ∀ c, text[i]? = some c → Text.isAsciiDigit c = false) :
    (text.drop i).takeWhile Text.isAsciiDigit = [] := by
  cases hdrop : text.drop i with
  | nil => rfl
  | cons c rest =>
    have hc : text[i]? = some c := by
      rw [← List.head?_drop, hdrop]
      rfl
    exact List.takeWhile_cons_of_neg (by simp [h c hc])

lemma address_of_no_digit (h : ∀ c, text[i]? = some c → Text.isAsciiDigit c = false) :
    address text i = marked text i := by
  have hnumber : number text i = .ok (i, none) := by rw [number, takeWhile_digits_eq_nil h]
  rw [address_eq, hnumber]
  rfl

lemma address_zeros {zeros : Text} (h : Takes text i k zeros) (hzeros : ∀ c ∈ zeros, c = '0')
    (hlimit : zeros.length ≤ Text.digitLimit) (hnext : ∀ c, text[k]? = some c → Text.isAsciiDigit c = false) :
    address text i = address text k := by
  obtain ⟨rfl, hdrop⟩ := h
  have hdigits : ∀ c ∈ zeros, Text.isAsciiDigit c = true := by
    intro c hc
    rw [hzeros c hc]
    rfl
  have htake : (text.drop i).takeWhile Text.isAsciiDigit = zeros := by
    rw [hdrop, List.takeWhile_append_of_pos hdigits, takeWhile_digits_eq_nil hnext, List.append_nil]
  cases zeros with
  | nil => rfl
  | cons d zeros =>
    have hnumber : number text i = .ok (i + (d :: zeros).length, some 0) := by
      rw [number, htake]
      dsimp only
      rw [if_neg (Nat.not_lt.2 hlimit), (Text.toNumber_eq_zero hdigits).2 hzeros]
    rw [address_of_no_digit hnext, address_eq, hnumber]
    rfl

lemma address_backslash (hmark : text[i]? = some '\\') (h : regexp text (i + 1) none = .ok (i + 1, none)) :
    address text i = .ok (i + 1, none) := by
  have hdigit : ∀ c, text[i]? = some c → Text.isAsciiDigit c = false := by
    intro c hc
    rw [hmark] at hc
    cases hc
    rfl
  rw [address_of_no_digit hdigit, marked, hmark, if_neg (by decide), if_pos rfl, h]
  rfl

end

/-- Where there is no address, zeros and a backslash that begins no regexp are skipped all the same, and nothing else is.
So what is taken before a command without addresses is blanks and an exclamation mark exactly if there are no zeros and
no backslash. Zeros are skipped before an address too. -/
theorem unaddressed_skips_zeros_and_backslash (text : Text) (i : Nat) :
    (∀ j, address text i = .ok (j, none) →
      (∃ zeros mark : Text, Takes text i j (zeros ++ mark) ∧ (∀ c ∈ zeros, c = '0') ∧ (mark = [] ∨ mark = ['\\'])) ∧
      (j = i ↔ text[i]? ≠ some '0' ∧ text[i]? ≠ some '\\')) ∧
    (∀ j negated, addresses text i = .ok (j, none, none, negated) →
      ∃ before zeros mark after : Text,
        Takes text i j (before ++ (zeros ++ mark) ++ (after ++ if negated then ['!'] else [])) ∧
        (∀ c ∈ before, Text.isBlank c = true) ∧ (∀ c ∈ zeros, c = '0') ∧ (mark = [] ∨ mark = ['\\']) ∧
        (∀ c ∈ after, Text.isBlank c = true) ∧
        (BlanksOnly (before ++ (zeros ++ mark) ++ (after ++ if negated then ['!'] else [])) ↔ zeros ++ mark = [])) ∧
    (∀ zeros k, Takes text i k zeros → (∀ c ∈ zeros, c = '0') → zeros.length ≤ Text.digitLimit →
      (∀ c, text[k]? = some c → Text.isAsciiDigit c = false) → address text i = address text k) ∧
    (text[i]? = some '\\' → regexp text (i + 1) none = .ok (i + 1, none) → address text i = .ok (i + 1, none)) := by
  refine ⟨fun j h => ⟨?_, eq_iff_of_address_none h⟩, fun j negated h => ?_, fun zeros k => address_zeros,
    address_backslash⟩
  · obtain ⟨zeros, mark, htakes, hzeros, -, hmark⟩ := of_address_none h
    exact ⟨zeros, mark, htakes, hzeros, (hmark.imp And.left And.left).symm⟩
  · obtain ⟨k, ha, after, hafter, hlast⟩ := of_addresses_none h
    obtain ⟨before, hbefore, hfirst⟩ := takes_skipBlanks text i
    obtain ⟨zeros, mark, htakes, hzeros, -, hmark⟩ := of_address_none ha
    have hmark : mark = [] ∨ mark = ['\\'] := (hmark.imp And.left And.left).symm
    have hskipped : ∀ c ∈ zeros ++ mark, c = '0' ∨ c = '\\' := by
      refine List.forall_mem_append.2 ⟨fun c hc => .inl (hzeros c hc), fun c hc => .inr ?_⟩
      rcases hmark with rfl | rfl
      · cases hc
      · exact List.mem_singleton.1 hc
    have hstop : (if negated then ['!'] else []) = [] ∨ (if negated then ['!'] else []) = ['!'] := by
      cases negated <;> simp
    exact ⟨before, zeros, mark, after, (hfirst.append htakes).append hlast, hbefore, hzeros, hmark, hafter,
      blanksOnly_iff hbefore hskipped hafter hstop⟩

def sampleSkipped : Text := [' ', '0', '0', '\\', ' ', '!', 'p']

theorem sampleSkipped_is_skipped :
    addresses sampleSkipped 0 = .ok (6, none, none, true) ∧
      ∃ before zeros mark after : Text,
        before ++ (zeros ++ mark) ++ (after ++ ['!']) = [' ', '0', '0', '\\', ' ', '!'] ∧ zeros ++ mark ≠ [] ∧
        (∀ c ∈ zeros, c = '0') ∧ (mark = [] ∨ mark = ['\\']) := by
  have haddresses : addresses sampleSkipped 0 = .ok (6, none, none, true) := of_toOption (by decide +kernel)
  obtain ⟨before, zeros, mark, after, ⟨hlength, hdrop⟩, hbefore, hzeros, hmark, hafter, hblanks⟩ :=
    (unaddressed_skips_zeros_and_backslash sampleSkipped 0).2.1 6 true haddresses
  have htaken : before ++ (zeros ++ mark) ++ (after ++ ['!']) = [' ', '0', '0', '\\', ' ', '!'] :=
    (List.append_inj_left' hdrop rfl).symm
  refine ⟨haddresses, before, zeros, mark, after, htaken, fun hnone => ?_, hzeros, hmark⟩
  have honly := hblanks.2 hnone
  rw [if_pos rfl, htaken] at honly
  exact absurd (honly.of_mem (c := '0') (by simp)) (by decide)

theorem zero_is_skipped :
    address ['0', 'p'] 0 = .ok (1, none) ∧ addresses ['0', 'p'] 0 = .ok (1, none, none, false) ∧ ¬BlanksOnly ['0'] := by
  refine ⟨of_toOption (by decide +kernel), of_toOption (by decide +kernel), fun h => ?_⟩
  exact absurd (h.of_mem (c := '0') (by simp)) (by decide)

end Script

end StreamEditor
