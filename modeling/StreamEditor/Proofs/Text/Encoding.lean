import Mathlib.Data.List.Count
import StreamEditor.Text.Encoding

namespace StreamEditor.Text

lemma toUtf8_injective : Function.Injective toUtf8 := fun _ _ h =>
  String.ofList_injective (String.toByteArray_inj.1 (congrArg List.toByteArray h))

def recoded (b : UInt8) : Bytes := if b < 128 then [b] else [0xc0 + b / 64, 0x80 + b % 64]

lemma utf8EncodeChar_ofNat (b : UInt8) : String.utf8EncodeChar (Char.ofNat b.toNat) = recoded b := by
  have h : ∀ n < 256, String.utf8EncodeChar (Char.ofNat n) = recoded (UInt8.ofNat n) := by decide +kernel
  simpa using h b.toNat b.toNat_lt

lemma toUtf8_ofLatin1 (bytes : Bytes) : toUtf8 (ofLatin1 bytes) = bytes.flatMap recoded := by
  simp [toUtf8, ofLatin1, List.flatMap_map, utf8EncodeChar_ofNat]

lemma length_le_length_recoded (bytes : Bytes) : bytes.length ≤ (bytes.flatMap recoded).length := by
  induction bytes with
  | nil => exact Nat.le_refl _
  | cons b bytes ih =>
    have hb : 1 ≤ (recoded b).length := by
      rw [recoded]
      split <;> simp
    simp only [List.length_cons, List.flatMap_cons, List.length_append]
    omega

-- A byte above the ASCII range becomes two, and no byte is lost that could make up for it.
lemma flatMap_recoded_eq_iff (bytes : Bytes) : bytes.flatMap recoded = bytes ↔ ∀ b ∈ bytes, b < 128 := by
  induction bytes with
  | nil => simp
  | cons b bytes ih =>
    rw [List.flatMap_cons, List.forall_mem_cons, ← ih, recoded]
    by_cases hb : b < 128
    · simp [hb]
    · rw [if_neg hb]
      refine iff_of_false (fun h => ?_) fun h => hb h.1
      have hlength := congrArg List.length h
      have hle := length_le_length_recoded bytes
      simp only [List.length_append, List.length_cons, List.length_nil] at hlength
      omega

lemma ofNat_toNat_injective : Function.Injective fun b : UInt8 => Char.ofNat b.toNat := by
  have h : ∀ n < 256, (Char.ofNat n).toNat = n := by decide +kernel
  intro a b hab
  have hn : (Char.ofNat a.toNat).toNat = (Char.ofNat b.toNat).toNat := congrArg Char.toNat hab
  rw [h _ a.toNat_lt, h _ b.toNat_lt] at hn
  exact UInt8.toNat_inj.1 hn

section

variable {bytes : Bytes}

lemma notMem_ofLatin1 (h : 13 ∉ bytes) : '\r' ∉ ofLatin1 bytes := by
  intro hr
  obtain ⟨b, hb, hc⟩ := List.mem_map.1 hr
  obtain rfl : b = 13 := ofNat_toNat_injective hc
  exact h hb

lemma count_ofLatin1 (bytes : Bytes) : (ofLatin1 bytes).count '\n' = bytes.count 10 :=
  List.count_map_of_injective bytes _ ofNat_toNat_injective 10

lemma getLast?_ofLatin1 (h : bytes = [] ∨ bytes.getLast? = some 10) :
    ofLatin1 bytes = [] ∨ (ofLatin1 bytes).getLast? = some '\n' := by
  rcases h with rfl | h
  · exact .inl rfl
  · right
    rw [ofLatin1, List.getLast?_map, h]
    rfl

end

lemma normalizeNewlines_eq_self {t : Text} (h : '\r' ∉ t) : normalizeNewlines t = t := by
  fun_induction normalizeNewlines t with
  | case1 | case2 => simp at h
  | case3 c rest _ _ ih => rw [ih fun hc => h (List.mem_cons_of_mem c hc)]
  | case4 => rfl

lemma dropTrailing_cons {p : Char → Bool} {c : Char} (h : p c = false) (t : Text) :
    dropTrailing p (c :: t) = c :: dropTrailing p t := by
  rw [dropTrailing, List.reverse_cons, List.dropWhile_append]
  by_cases ht : (t.reverse.dropWhile p).isEmpty
  · simp [dropTrailing, List.isEmpty_iff.1 ht, h]
  · simp [dropTrailing, ht]

lemma records_ne_nil {t : Text} (ht : t ≠ []) : records t ≠ [] := by
  cases t with
  | nil => exact absurd rfl ht
  | cons c cs =>
    rw [records]
    split
    · simp
    · split <;> simp

lemma records_append {s : Text} (hs : s = [] ∨ s.getLast? = some '\n') (t : Text) :
    records (s ++ t) = records s ++ records t := by
  induction s with
  | nil => rfl
  | cons c cs ih =>
    have hlast : (c :: cs).getLast? = some '\n' := hs.resolve_left nofun
    rw [List.cons_append, records, records]
    by_cases hcs : cs = []
    · subst hcs
      obtain rfl : c = '\n' := Option.some.inj hlast
      rfl
    · rw [ih (.inr (by rwa [List.getLast?_cons_of_ne_nil hcs] at hlast))]
      cases hr : records cs with
      | nil => exact absurd hr (records_ne_nil hcs)
      | cons r rs =>
        split <;> rfl

lemma records_cons {c : Char} {t : Text} (h : (c :: t).getLast? = some '\n') :
    (t = [] ∨ t.getLast? = some '\n') ∧
      (c = '\n' ∨ c ≠ '\n' ∧ ∃ r rs, records t = r :: rs ∧ records (c :: t) = (c :: r) :: rs) := by
  by_cases ht : t = []
  · subst ht
    exact ⟨.inl rfl, .inl (Option.some.inj h)⟩
  · rw [List.getLast?_cons_of_ne_nil ht] at h
    refine ⟨.inr h, ?_⟩
    by_cases hc : c = '\n'
    · exact .inl hc
    · cases hr : records t with
      | nil => exact absurd hr (records_ne_nil ht)
      | cons r rs => exact .inr ⟨hc, r, rs, rfl, by rw [records, if_neg hc, hr]⟩

lemma length_records {t : Text} (h : t = [] ∨ t.getLast? = some '\n') : (records t).length = t.count '\n' := by
  induction t with
  | nil => rfl
  | cons c t ih =>
    obtain ⟨ht, rfl | ⟨hc, r, rs, hr, hrec⟩⟩ := records_cons (h.resolve_left nofun)
    · rw [records, if_pos rfl, List.length_cons, ih ht, List.count_cons_self]
    · rw [List.count_cons_of_ne hc, ← ih ht, hrec, hr, List.length_cons, List.length_cons]

lemma flatMap_chomp_records {t : Text} (hr : '\r' ∉ t) (h : t = [] ∨ t.getLast? = some '\n') :
    (records t).flatMap (fun r => chomp r ++ ['\n']) = t := by
  induction t with
  | nil => rfl
  | cons c t ih =>
    obtain ⟨hcr, hrt⟩ := List.ne_and_not_mem_of_not_mem_cons hr
    obtain ⟨ht, rfl | ⟨hc, r, rs, hrs, hrec⟩⟩ := records_cons (h.resolve_left nofun)
    · rw [records, if_pos rfl, List.flatMap_cons, ih hrt ht]
      rfl
    · have hchomp : chomp (c :: r) = c :: chomp r := dropTrailing_cons (by simp [hc, Ne.symm hcr]) r
      have hrest := ih hrt ht
      rw [hrs, List.flatMap_cons] at hrest
      rw [hrec, List.flatMap_cons, hchomp, List.cons_append, List.cons_append, hrest]

end StreamEditor.Text
