import ClusterFleet.Text.Utf8
import Mathlib.Tactic.SplitIfs

namespace ClusterFleet.Text.Utf8

variable {a b d e : UInt8} {bs rest : List UInt8} {c : Char} {acc n : Nat}

theorem toList_loop (bytes : ByteArray) (i : Nat) (r : List UInt8) :
    ByteArray.toList.loop bytes i r = r.reverse ++ bytes.data.toList.drop i := by
  fun_induction ByteArray.toList.loop bytes i r with
  | case1 i r h ih =>
    have hi : i < bytes.data.toList.length := by simpa using h
    rw [ih, List.drop_eq_getElem_cons hi]
    simp [ByteArray.get!, h]
  | case2 i r h =>
    have hi : bytes.data.toList.length ≤ i := by simpa using h
    rw [List.drop_eq_nil_of_le hi, List.append_nil]

theorem encode_eq (s : String) : encode s = s.toList.flatMap String.utf8EncodeChar := by
  have h : s.toUTF8 = (s.toList.flatMap String.utf8EncodeChar).toByteArray := by
    rw [String.toUTF8_eq_toByteArray, ← String.utf8Encode_toList]
    rfl
  rw [encode, h, ByteArray.toList, toList_loop, List.toList_data_toByteArray]
  rfl

theorem isTail_iff : isTail b ↔ 0x80 ≤ b.toNat ∧ b.toNat ≤ 0xBF := by
  simp [isTail, UInt8.le_iff_toNat_le]

theorem toNat_ofNat_of_lt (h : n < 256) : (UInt8.ofNat n).toNat = n := by
  rw [UInt8.toNat_ofNat', Nat.mod_eq_of_lt h]

theorem eq_ofNat_iff (h : n < 256) : UInt8.ofNat n = b ↔ n = b.toNat := by
  rw [← UInt8.toNat_inj, toNat_ofNat_of_lt h]

theorem isTail_ofNat (h : n < 0x40) : isTail (UInt8.ofNat (n + 0x80)) := by
  rw [isTail_iff, toNat_ofNat_of_lt (by omega)]
  omega

theorem payload_ofNat (h : n < 0x40) : payload (UInt8.ofNat (n + 0x80)) = n := by
  rw [payload, toNat_ofNat_of_lt (by omega)]
  omega

theorem val_ofNat (h : n.isValidChar) : (Char.ofNat n).val.toNat = n := by
  rw [Char.ofNat, dif_pos h]
  exact UInt32.toNat_ofNatLT

theorem ofNat_eq (h : n = c.val.toNat) : Char.ofNat n = c := by
  rw [h]
  exact Char.ofNat_toNat c

theorem last_eq_char_iff : last acc bs = .char c rest ↔
    ∃ b, bs = b :: rest ∧ isTail b ∧ c = Char.ofNat (acc * 0x40 + payload b) := by
  cases bs with
  | nil => simp [last]
  | cons b bs =>
    simp only [last]
    split_ifs with h
    · constructor
      · intro he
        cases he
        exact ⟨b, rfl, h, rfl⟩
      · rintro ⟨_, he, _, rfl⟩
        cases he
        rfl
    · constructor
      · intro he
        cases he
      · rintro ⟨_, he, ht, _⟩
        cases he
        exact absurd ht h

theorem second_eq_char_iff {lo hi : UInt8} {more : Nat → List UInt8 → Step} :
    second lo hi acc more bs = .char c rest ↔ ∃ b bs', bs = b :: bs' ∧
      lo.toNat ≤ b.toNat ∧ b.toNat ≤ hi.toNat ∧
        more (acc * 0x40 + payload b) bs' = .char c rest := by
  cases bs with
  | nil => simp [second]
  | cons b bs =>
    simp only [second, Bool.and_eq_true, decide_eq_true_eq, UInt8.le_iff_toNat_le]
    split_ifs with h
    · constructor
      · exact fun he => ⟨b, bs, rfl, h.1, h.2, he⟩
      · rintro ⟨_, _, he, _, _, hm⟩
        cases he
        exact hm
    · constructor
      · intro he
        cases he
      · rintro ⟨_, _, he, hl, hh, _⟩
        cases he
        exact absurd ⟨hl, hh⟩ h

theorem encodeChar_one (hb : b.toNat < 0x80) :
    String.utf8EncodeChar (Char.ofNat b.toNat) = [b] := by
  have hv := val_ofNat (n := b.toNat) (.inl (by omega))
  simp only [String.utf8EncodeChar, hv]
  rw [if_pos (by omega), UInt8.ofNat_toNat]

theorem encodeChar_two (ha : 0xC2 ≤ a.toNat) (ha' : a.toNat < 0xE0) (hb : isTail b) :
    String.utf8EncodeChar (Char.ofNat ((a.toNat - 0xC0) * 0x40 + payload b)) = [a, b] := by
  rw [isTail_iff] at hb
  have hv := val_ofNat (n := (a.toNat - 0xC0) * 0x40 + payload b) (.inl (by unfold payload; omega))
  simp only [String.utf8EncodeChar, hv]
  unfold payload
  rw [if_neg (by omega), if_pos (by omega)]
  simp only [List.cons.injEq, and_true]
  rw [eq_ofNat_iff (by omega), eq_ofNat_iff (by omega)]
  omega

theorem encodeChar_three (ha : 0xE0 ≤ a.toNat) (ha' : a.toNat < 0xF0) (hb : isTail b)
    (hd : isTail d) (hn : n = ((a.toNat - 0xE0) * 0x40 + payload b) * 0x40 + payload d)
    (hlong : 0x800 ≤ n) (hvalid : n.isValidChar) :
    String.utf8EncodeChar (Char.ofNat n) = [a, b, d] := by
  rw [isTail_iff] at hb hd
  unfold payload at hn
  simp only [String.utf8EncodeChar, val_ofNat hvalid]
  rw [if_neg (by omega), if_neg (by omega), if_pos (by omega)]
  simp only [List.cons.injEq, and_true]
  rw [eq_ofNat_iff (by omega), eq_ofNat_iff (by omega), eq_ofNat_iff (by omega)]
  omega

theorem encodeChar_four (ha : 0xF0 ≤ a.toNat) (ha' : a.toNat < 0xF5) (hb : isTail b)
    (hd : isTail d) (he : isTail e)
    (hn : n = (((a.toNat - 0xF0) * 0x40 + payload b) * 0x40 + payload d) * 0x40 + payload e)
    (hlong : 0x10000 ≤ n) (hvalid : n.isValidChar) :
    String.utf8EncodeChar (Char.ofNat n) = [a, b, d, e] := by
  rw [isTail_iff] at hb hd he
  unfold payload at hn
  simp only [String.utf8EncodeChar, val_ofNat hvalid]
  rw [if_neg (by omega), if_neg (by omega), if_neg (by omega)]
  simp only [List.cons.injEq, and_true]
  rw [eq_ofNat_iff (by omega), eq_ofNat_iff (by omega), eq_ofNat_iff (by omega),
    eq_ofNat_iff (by omega)]
  omega

theorem eq_of_last (ha : 0xC2 ≤ a.toNat) (ha' : a.toNat < 0xE0)
    (h : last (a.toNat - 0xC0) bs = .char c rest) :
    a :: bs = String.utf8EncodeChar c ++ rest := by
  obtain ⟨b, rfl, hb, rfl⟩ := last_eq_char_iff.1 h
  rw [encodeChar_two ha ha' hb]
  rfl

theorem eq_of_second_last {lo hi : UInt8} (ha : 0xE0 ≤ a.toNat) (ha' : a.toNat < 0xF0)
    (hacc : acc = a.toNat - 0xE0) (hlo : 0x80 ≤ lo.toNat) (hhi : hi.toNat ≤ 0xBF)
    (hlong : 0x20 ≤ acc * 0x40 + (lo.toNat - 0x80))
    (hvalid : acc * 0x40 + (hi.toNat - 0x80) < 0x360 ∨ 0x380 ≤ acc * 0x40 + (lo.toNat - 0x80))
    (h : second lo hi acc last bs = .char c rest) :
    a :: bs = String.utf8EncodeChar c ++ rest := by
  obtain ⟨b, _, rfl, hl, hh, hm⟩ := second_eq_char_iff.1 h
  obtain ⟨d, rfl, hd, rfl⟩ := last_eq_char_iff.1 hm
  have hb : isTail b := isTail_iff.2 (by omega)
  rw [encodeChar_three ha ha' hb hd (by rw [hacc]) (by unfold payload; omega)
    (by unfold payload Nat.isValidChar; omega)]
  rfl

theorem eq_of_second_lastTwo {lo hi : UInt8} (ha : 0xF0 ≤ a.toNat) (ha' : a.toNat < 0xF5)
    (hacc : acc = a.toNat - 0xF0) (hlo : 0x80 ≤ lo.toNat) (hhi : hi.toNat ≤ 0xBF)
    (hlong : 0x10 ≤ acc * 0x40 + (lo.toNat - 0x80))
    (hvalid : acc * 0x40 + (hi.toNat - 0x80) < 0x110)
    (h : second lo hi acc lastTwo bs = .char c rest) :
    a :: bs = String.utf8EncodeChar c ++ rest := by
  obtain ⟨b, _, rfl, hl, hh, hm⟩ := second_eq_char_iff.1 h
  obtain ⟨d, _, rfl, hd, hd', hm⟩ := second_eq_char_iff.1 hm
  obtain ⟨e, rfl, he, rfl⟩ := last_eq_char_iff.1 hm
  have hb : isTail b := isTail_iff.2 (by omega)
  rw [encodeChar_four ha ha' hb (isTail_iff.2 ⟨hd, hd'⟩) he (by rw [hacc])
    (by unfold payload; omega) (by unfold payload Nat.isValidChar; omega)]
  rfl

theorem eq_of_next (h : next b bs = .char c rest) : b :: bs = String.utf8EncodeChar c ++ rest := by
  unfold next at h
  simp only [UInt8.lt_iff_toNat_lt, ← UInt8.toNat_inj, UInt8.reduceToNat] at h
  split_ifs at h with h₁ h₂ h₃ h₄ h₅ h₆ h₇ h₈ h₉
  · cases h
    rw [encodeChar_one h₁]
    rfl
  · exact eq_of_last (by omega) h₃ h
  · exact eq_of_second_last (by omega) (by omega) (by omega) (by decide) (by decide) (by decide)
      (by decide) h
  · exact eq_of_second_last (by omega) (by omega) (by omega) (by decide) (by decide) (by decide)
      (by decide) h
  · exact eq_of_second_last (by omega) h₆ rfl (by decide) (by decide) (by omega)
      (by simp only [UInt8.reduceToNat]; omega) h
  · exact eq_of_second_lastTwo (by omega) (by omega) (by omega) (by decide) (by decide) (by decide)
      (by decide) h
  · exact eq_of_second_lastTwo (by omega) (by omega) rfl (by decide) (by decide) (by omega)
      (by simp only [UInt8.reduceToNat]; omega) h
  · exact eq_of_second_lastTwo (by omega) (by omega) (by omega) (by decide) (by decide) (by decide)
      (by decide) h

theorem next_one (hb : b.toNat < 0x80) : next b rest = .char (Char.ofNat b.toNat) rest := by
  unfold next
  rw [if_pos (UInt8.lt_iff_toNat_lt.2 hb)]

theorem next_two (ha : 0xC2 ≤ a.toNat) (ha' : a.toNat < 0xE0) (hb : isTail b) :
    next a (b :: rest) = .char (Char.ofNat ((a.toNat - 0xC0) * 0x40 + payload b)) rest := by
  unfold next
  simp only [UInt8.lt_iff_toNat_lt, UInt8.reduceToNat]
  rw [if_neg (by omega), if_neg (by omega), if_pos ha']
  exact last_eq_char_iff.2 ⟨b, rfl, hb, rfl⟩

theorem next_three (ha : 0xE0 ≤ a.toNat) (ha' : a.toNat < 0xF0) (hb : isTail b) (hd : isTail d)
    (hn : n = ((a.toNat - 0xE0) * 0x40 + payload b) * 0x40 + payload d) (hlong : 0x800 ≤ n)
    (hvalid : n.isValidChar) : next a (b :: d :: rest) = .char (Char.ofNat n) rest := by
  have hb' := isTail_iff.1 hb
  have hread : ∀ (lo hi : UInt8) (acc : Nat), lo.toNat ≤ b.toNat → b.toNat ≤ hi.toNat →
      acc = a.toNat - 0xE0 →
        second lo hi acc last (b :: d :: rest) = .char (Char.ofNat n) rest := by
    intro lo hi acc hl hh hacc
    refine second_eq_char_iff.2 ⟨b, _, rfl, hl, hh, last_eq_char_iff.2 ⟨d, rfl, hd, ?_⟩⟩
    rw [hn, hacc]
  unfold payload at hn
  unfold Nat.isValidChar at hvalid
  unfold next
  simp only [UInt8.lt_iff_toNat_lt, ← UInt8.toNat_inj, UInt8.reduceToNat]
  rw [if_neg (by omega), if_neg (by omega), if_neg (by omega)]
  -- After 0xE0 and 0xED fewer bytes may follow: no overlong forms, and no surrogates.
  split_ifs with h₄ h₅
  · exact hread 0xA0 0xBF 0 (by simp only [UInt8.reduceToNat]; omega) hb'.2 (by omega)
  · exact hread 0x80 0x9F 0xD hb'.1 (by simp only [UInt8.reduceToNat]; omega) (by omega)
  · exact hread 0x80 0xBF _ hb'.1 hb'.2 rfl

theorem next_four (ha : 0xF0 ≤ a.toNat) (ha' : a.toNat < 0xF5) (hb : isTail b) (hd : isTail d)
    (he : isTail e)
    (hn : n = (((a.toNat - 0xF0) * 0x40 + payload b) * 0x40 + payload d) * 0x40 + payload e)
    (hlong : 0x10000 ≤ n) (hvalid : n.isValidChar) :
    next a (b :: d :: e :: rest) = .char (Char.ofNat n) rest := by
  have hb' := isTail_iff.1 hb
  have hd' := isTail_iff.1 hd
  have hread : ∀ (lo hi : UInt8) (acc : Nat), lo.toNat ≤ b.toNat → b.toNat ≤ hi.toNat →
      acc = a.toNat - 0xF0 →
        second lo hi acc lastTwo (b :: d :: e :: rest) = .char (Char.ofNat n) rest := by
    intro lo hi acc hl hh hacc
    refine second_eq_char_iff.2 ⟨b, _, rfl, hl, hh, second_eq_char_iff.2 ⟨d, _, rfl, ?_⟩⟩
    refine ⟨hd'.1, hd'.2, last_eq_char_iff.2 ⟨e, rfl, he, ?_⟩⟩
    rw [hn, hacc]
  unfold payload at hn
  unfold Nat.isValidChar at hvalid
  unfold next
  simp only [UInt8.lt_iff_toNat_lt, ← UInt8.toNat_inj, UInt8.reduceToNat]
  rw [if_neg (by omega), if_neg (by omega), if_neg (by omega), if_neg (by omega),
    if_neg (by omega), if_neg (by omega)]
  -- After 0xF0 and 0xF4 likewise: no overlong forms, and nothing past the last character.
  split_ifs with h₇ h₈
  · exact hread 0x90 0xBF 0 (by simp only [UInt8.reduceToNat]; omega) hb'.2 (by omega)
  · exact hread 0x80 0xBF _ hb'.1 hb'.2 rfl
  · exact hread 0x80 0x8F 4 hb'.1 (by simp only [UInt8.reduceToNat]; omega) (by omega)
  · omega

theorem next_encodeChar (c : Char) (rest : List UInt8) :
    ∃ b bs, String.utf8EncodeChar c ++ rest = b :: bs ∧ next b bs = .char c rest := by
  have hc : c.val.toNat.isValidChar := c.valid
  have hlt : c.val.toNat < 0x110000 := by
    unfold Nat.isValidChar at hc
    omega
  -- Each byte but the first holds six bits.
  have htail : ∀ n, isTail (UInt8.ofNat (n % 0x40 + 0x80)) :=
    fun n => isTail_ofNat (Nat.mod_lt _ (by decide))
  have hpayload : ∀ n, payload (UInt8.ofNat (n % 0x40 + 0x80)) = n % 0x40 :=
    fun n => payload_ofNat (Nat.mod_lt _ (by decide))
  unfold String.utf8EncodeChar
  simp only
  split_ifs with h₁ h₂ h₃ <;> simp only [List.cons_append, List.nil_append] <;>
    refine ⟨_, _, rfl, ?_⟩
  · have hb : (UInt8.ofNat c.val.toNat).toNat = c.val.toNat := toNat_ofNat_of_lt (by omega)
    rw [next_one (by omega), hb, ofNat_eq rfl]
  · have ha := toNat_ofNat_of_lt (n := c.val.toNat / 64 % 0x20 + 0xc0) (by omega)
    rw [next_two (by omega) (by omega) (htail _), ofNat_eq]
    rw [ha, hpayload]
    omega
  · have ha := toNat_ofNat_of_lt (n := c.val.toNat / 4096 % 0x10 + 0xe0) (by omega)
    rw [next_three (n := c.val.toNat) (by omega) (by omega) (htail _) (htail _)
      (by rw [ha, hpayload, hpayload]; omega) (by omega) hc, ofNat_eq rfl]
  · have ha := toNat_ofNat_of_lt (n := c.val.toNat / 262144 % 0x08 + 0xf0) (by omega)
    rw [next_four (n := c.val.toNat) (by omega) (by omega) (htail _) (htail _) (htail _)
      (by rw [ha, hpayload, hpayload, hpayload]; omega) (by omega) hc, ofNat_eq rfl]

theorem decodeChars?_eq_some_iff {cs : List Char} :
    decodeChars? bs = some cs ↔ bs = cs.flatMap String.utf8EncodeChar := by
  constructor
  · intro h
    fun_induction decodeChars? bs generalizing cs with
    | case1 =>
      cases h
      rfl
    | case2 b bs c rest hn ih =>
      obtain ⟨ds, hds, rfl⟩ := Option.map_eq_some_iff.1 h
      rw [eq_of_next hn, ih hds, List.flatMap_cons]
    | case3 => cases h
  · rintro rfl
    induction cs with
    | nil => simp [decodeChars?]
    | cons c cs ih =>
      obtain ⟨b, bs, he, hn⟩ := next_encodeChar c (cs.flatMap String.utf8EncodeChar)
      rw [List.flatMap_cons, he, decodeChars?]
      split
      · next hc =>
        rw [hn] at hc
        cases hc
        rw [ih, Option.map_some]
      · next hc =>
        rw [hn] at hc
        cases hc

theorem decode?_eq_some_iff {s : String} : decode? bs = some s ↔ bs = encode s := by
  rw [decode?, Option.map_eq_some_iff, encode_eq]
  constructor
  · rintro ⟨cs, hcs, rfl⟩
    rw [decodeChars?_eq_some_iff.1 hcs, String.toList_ofList]
  · intro h
    exact ⟨s.toList, decodeChars?_eq_some_iff.2 h, String.ofList_toList⟩

def IsText (bs : List UInt8) : Prop := ∃ s, bs = encode s

theorem decode?_eq_none_iff : decode? bs = none ↔ ¬IsText bs := by
  simp only [Option.eq_none_iff_forall_not_mem, Option.mem_def, decode?_eq_some_iff, IsText,
    not_exists]

end ClusterFleet.Text.Utf8
