import ContractAbi.Text.Utf8
import ContractAbi.Proofs.Results
/-!
UTF-8 read back both ways. Decoding the bytes of a string gives the string
(`Utf8.decode_encode`), and a byte string that decodes is the encoding of what it decodes to
(`Utf8.encode_of_decode`): the decoder refuses overlong forms, surrogates and code points past
`0x10FFFF`, so each accepted sequence is the shortest form of its character.
-/

namespace ContractAbi.Utf8

theorem toNat_ofNat_byte {x : Nat} (h : x < 256) : (UInt8.ofNat x).toNat = x := by
  simp; omega

theorem ofNat_eq_byte {x : Nat} {b : UInt8} (h : x = b.toNat) : UInt8.ofNat x = b := by
  subst h
  exact UInt8.ofNat_toNat

theorem toNat_ofNat_char {n : Nat} (h : n < 0xD800 ∨ (0xDFFF < n ∧ n < 0x110000)) :
    (Char.ofNat n).toNat = n := by
  rw [Char.ofNat, dif_pos h]
  rfl

theorem isContinuation_iff {b : UInt8} : isContinuation b = true ↔ 0x80 ≤ b.toNat ∧ b.toNat ≤ 0xBF := by
  simp [isContinuation]

/-! ### Lead bytes -/

theorem leadRule_one {b : Nat} (h : b < 0x80) : leadRule b = some (1, 0, 0) := by
  simp [leadRule, h]

theorem leadRule_two {b : Nat} (h : 0xC2 ≤ b ∧ b ≤ 0xDF) : leadRule b = some (2, 0x80, 0xBF) := by
  unfold leadRule
  rw [if_neg (by omega), if_pos h]

theorem leadRule_three {b : Nat} (h : 0xE0 ≤ b ∧ b ≤ 0xEF) :
    leadRule b = some (3, if b = 0xE0 then 0xA0 else 0x80, if b = 0xED then 0x9F else 0xBF) := by
  unfold leadRule
  rw [if_neg (by omega), if_neg (by omega)]
  by_cases h0 : b = 0xE0
  · simp [h0]
  · by_cases hd : b = 0xED
    · simp [hd]
    · rw [if_neg h0, if_pos (by omega)]
      simp [h0, hd]

theorem leadRule_four {b : Nat} (h : 0xF0 ≤ b ∧ b ≤ 0xF4) :
    leadRule b = some (4, if b = 0xF0 then 0x90 else 0x80, if b = 0xF4 then 0x8F else 0xBF) := by
  unfold leadRule
  rw [if_neg (by omega), if_neg (by omega), if_neg (by omega), if_neg (by omega), if_neg (by omega)]
  by_cases h0 : b = 0xF0
  · simp [h0]
  · by_cases h4 : b = 0xF4
    · simp [h4]
    · rw [if_neg h0, if_pos (by omega)]
      simp [h0, h4]

/-- What a lead byte says: the length of its sequence, and the range of the second byte that
excludes overlong forms, surrogates and code points past `0x10FFFF`. -/
theorem leadRule_eq_some {b w lo hi : Nat} (h : leadRule b = some (w, lo, hi)) :
    (w = 1 ∧ b < 0x80) ∨ (w = 2 ∧ 0xC2 ≤ b ∧ b ≤ 0xDF ∧ lo = 0x80 ∧ hi = 0xBF) ∨
    (w = 3 ∧ 0xE0 ≤ b ∧ b ≤ 0xEF ∧ lo = (if b = 0xE0 then 0xA0 else 0x80) ∧
      hi = (if b = 0xED then 0x9F else 0xBF)) ∨
    (w = 4 ∧ 0xF0 ≤ b ∧ b ≤ 0xF4 ∧ lo = (if b = 0xF0 then 0x90 else 0x80) ∧
      hi = (if b = 0xF4 then 0x8F else 0xBF)) := by
  unfold leadRule at h
  split_ifs at h <;> simp only [Option.some.injEq, Prod.mk.injEq] at h <;> split_ifs <;> omega

/-! ### One sequence at a time -/

section Steps
variable {rest : Bytes} {i : Nat}

theorem decodeFrom_one {b : UInt8} (h : b.toNat < 0x80) :
    decodeFrom (b :: rest) i = (decodeFrom rest (i + 1)).map (Char.ofNat b.toNat :: ·) := by
  simp [decodeFrom, leadRule_one h]

theorem decodeFrom_two {b0 b1 : UInt8} {lo hi : Nat} (lead : leadRule b0.toNat = some (2, lo, hi))
    (h1 : lo ≤ b1.toNat ∧ b1.toNat ≤ hi) :
    decodeFrom (b0 :: b1 :: rest) i = (decodeFrom rest (i + 2)).map
      (Char.ofNat (b0.toNat % 32 * 64 + b1.toNat % 64) :: ·) := by
  simp [decodeFrom, lead, h1]

theorem decodeFrom_three {b0 b1 b2 : UInt8} {lo hi : Nat}
    (lead : leadRule b0.toNat = some (3, lo, hi)) (h1 : lo ≤ b1.toNat ∧ b1.toNat ≤ hi)
    (h2 : isContinuation b2 = true) :
    decodeFrom (b0 :: b1 :: b2 :: rest) i = (decodeFrom rest (i + 3)).map
      (Char.ofNat (b0.toNat % 16 * 4096 + b1.toNat % 64 * 64 + b2.toNat % 64) :: ·) := by
  simp [decodeFrom, lead, h1, h2]

theorem decodeFrom_four {b0 b1 b2 b3 : UInt8} {lo hi : Nat}
    (lead : leadRule b0.toNat = some (4, lo, hi)) (h1 : lo ≤ b1.toNat ∧ b1.toNat ≤ hi)
    (h2 : isContinuation b2 = true) (h3 : isContinuation b3 = true) :
    decodeFrom (b0 :: b1 :: b2 :: b3 :: rest) i = (decodeFrom rest (i + 4)).map
      (Char.ofNat (b0.toNat % 8 * 262144 + b1.toNat % 64 * 4096 + b2.toNat % 64 * 64
        + b3.toNat % 64) :: ·) := by
  simp [decodeFrom, lead, h1, h2, h3]

end Steps

/-! ### Encoding, then decoding -/

theorem isContinuation_ofNat {x : Nat} (h : x < 64) :
    isContinuation (UInt8.ofNat (0x80 + x)) = true := by
  rw [isContinuation_iff, toNat_ofNat_byte (by omega)]
  omega

theorem decodeFrom_encodeChar_append (c : Char) (rest : Bytes) (i : Nat) :
    decodeFrom (encodeChar c ++ rest) i =
      (decodeFrom rest (i + (encodeChar c).length)).map (c :: ·) := by
  have hv : c.toNat < 0xD800 ∨ (0xDFFF < c.toNat ∧ c.toNat < 0x110000) := c.valid
  -- the number of bytes follows the range of the code point
  by_cases h1 : c.toNat < 0x80
  · simp only [encodeChar, if_pos h1, List.cons_append, List.nil_append, List.length_singleton]
    rw [decodeFrom_one (by rw [toNat_ofNat_byte (by omega)]; exact h1),
      toNat_ofNat_byte (by omega), Char.ofNat_toNat]
  by_cases h2 : c.toNat < 0x800
  · simp only [encodeChar, if_neg h1, if_pos h2, List.cons_append, List.nil_append,
      List.length_cons, List.length_nil]
    have hb0 := toNat_ofNat_byte (show 0xC0 + c.toNat / 64 < 256 by omega)
    have hb1 := toNat_ofNat_byte (show 0x80 + c.toNat % 64 < 256 by omega)
    rw [decodeFrom_two (by rw [hb0]; exact leadRule_two (by omega)) (by rw [hb1]; omega), hb0, hb1]
    have hval : (0xC0 + c.toNat / 64) % 32 * 64 + (0x80 + c.toNat % 64) % 64 = c.toNat := by omega
    rw [hval, Char.ofNat_toNat]
  by_cases h3 : c.toNat < 0x10000
  · simp only [encodeChar, if_neg h1, if_neg h2, if_pos h3, List.cons_append, List.nil_append,
      List.length_cons, List.length_nil]
    have hb0 := toNat_ofNat_byte (show 0xE0 + c.toNat / 4096 < 256 by omega)
    have hb1 := toNat_ofNat_byte (show 0x80 + c.toNat / 64 % 64 < 256 by omega)
    have hb2 := toNat_ofNat_byte (show 0x80 + c.toNat % 64 < 256 by omega)
    -- the second byte clears the overlong and surrogate ranges that `E0` and `ED` leave open
    rw [decodeFrom_three (by rw [hb0]; exact leadRule_three (by omega))
      (by rw [hb1]; split_ifs <;> omega) (isContinuation_ofNat (by omega)), hb0, hb1, hb2]
    have hval : (0xE0 + c.toNat / 4096) % 16 * 4096 + (0x80 + c.toNat / 64 % 64) % 64 * 64
        + (0x80 + c.toNat % 64) % 64 = c.toNat := by omega
    rw [hval, Char.ofNat_toNat]
  · simp only [encodeChar, if_neg h1, if_neg h2, if_neg h3, List.cons_append, List.nil_append,
      List.length_cons, List.length_nil]
    have hb0 := toNat_ofNat_byte (show 0xF0 + c.toNat / 262144 < 256 by omega)
    have hb1 := toNat_ofNat_byte (show 0x80 + c.toNat / 4096 % 64 < 256 by omega)
    have hb2 := toNat_ofNat_byte (show 0x80 + c.toNat / 64 % 64 < 256 by omega)
    have hb3 := toNat_ofNat_byte (show 0x80 + c.toNat % 64 < 256 by omega)
    rw [decodeFrom_four (by rw [hb0]; exact leadRule_four (by omega))
      (by rw [hb1]; split_ifs <;> omega) (isContinuation_ofNat (by omega))
      (isContinuation_ofNat (by omega)), hb0, hb1, hb2, hb3]
    have hval : (0xF0 + c.toNat / 262144) % 8 * 262144 + (0x80 + c.toNat / 4096 % 64) % 64 * 4096
        + (0x80 + c.toNat / 64 % 64) % 64 * 64 + (0x80 + c.toNat % 64) % 64 = c.toNat := by omega
    rw [hval, Char.ofNat_toNat]

theorem decodeFrom_flatMap_encodeChar (cs : List Char) (i : Nat) :
    decodeFrom (cs.flatMap encodeChar) i = .ok cs := by
  induction cs generalizing i with
  | nil => rfl
  | cons c cs ih =>
    rw [List.flatMap_cons, decodeFrom_encodeChar_append, ih]
    rfl

theorem decode_encode (s : String) : decode (encode s) = .ok s := by
  simp only [decode, encode, decodeFrom_flatMap_encodeChar, Except.map, String.ofList_toList]

/-! ### Decoding, then encoding -/

theorem encodeChar_one {b : UInt8} (h : b.toNat < 0x80) : encodeChar (Char.ofNat b.toNat) = [b] := by
  have hv := toNat_ofNat_char (n := b.toNat) (by omega)
  simp only [encodeChar, hv, if_pos h, UInt8.ofNat_toNat]

theorem encodeChar_two {b0 b1 : UInt8} {lo hi : Nat} (lead : leadRule b0.toNat = some (2, lo, hi))
    (h1 : lo ≤ b1.toNat ∧ b1.toNat ≤ hi) :
    encodeChar (Char.ofNat (b0.toNat % 32 * 64 + b1.toNat % 64)) = [b0, b1] := by
  have hr := leadRule_eq_some lead
  have hb0 : 0xC2 ≤ b0.toNat ∧ b0.toNat ≤ 0xDF := by omega
  have hv := toNat_ofNat_char (n := b0.toNat % 32 * 64 + b1.toNat % 64) (by omega)
  simp only [encodeChar, hv]
  rw [if_neg (by omega), if_pos (by omega), ofNat_eq_byte (b := b0) (by omega),
    ofNat_eq_byte (b := b1) (by omega)]

theorem encodeChar_three {b0 b1 b2 : UInt8} {lo hi : Nat}
    (lead : leadRule b0.toNat = some (3, lo, hi)) (h1 : lo ≤ b1.toNat ∧ b1.toNat ≤ hi)
    (h2 : isContinuation b2 = true) :
    encodeChar (Char.ofNat (b0.toNat % 16 * 4096 + b1.toNat % 64 * 64 + b2.toNat % 64)) =
      [b0, b1, b2] := by
  have hr := leadRule_eq_some lead
  have hb0 : 0xE0 ≤ b0.toNat ∧ b0.toNat ≤ 0xEF := by omega
  rw [isContinuation_iff] at h2
  -- the range of the second byte keeps the code point out of the overlong and surrogate ranges
  have hb1 : (b0.toNat = 0xE0 → 0xA0 ≤ b1.toNat) ∧ (b0.toNat = 0xED → b1.toNat ≤ 0x9F) ∧
      0x80 ≤ b1.toNat ∧ b1.toNat ≤ 0xBF := by
    rcases hr with h | h | ⟨-, -, -, hlo, hhi⟩ | h <;> try omega
    subst hlo hhi
    split_ifs at h1 <;> omega
  have hv := toNat_ofNat_char (n := b0.toNat % 16 * 4096 + b1.toNat % 64 * 64 + b2.toNat % 64)
    (by omega)
  simp only [encodeChar, hv]
  rw [if_neg (by omega), if_neg (by omega), if_pos (by omega), ofNat_eq_byte (b := b0) (by omega),
    ofNat_eq_byte (b := b1) (by omega), ofNat_eq_byte (b := b2) (by omega)]

theorem encodeChar_four {b0 b1 b2 b3 : UInt8} {lo hi : Nat}
    (lead : leadRule b0.toNat = some (4, lo, hi)) (h1 : lo ≤ b1.toNat ∧ b1.toNat ≤ hi)
    (h2 : isContinuation b2 = true) (h3 : isContinuation b3 = true) :
    encodeChar (Char.ofNat (b0.toNat % 8 * 262144 + b1.toNat % 64 * 4096 + b2.toNat % 64 * 64
      + b3.toNat % 64)) = [b0, b1, b2, b3] := by
  have hr := leadRule_eq_some lead
  have hb0 : 0xF0 ≤ b0.toNat ∧ b0.toNat ≤ 0xF4 := by omega
  rw [isContinuation_iff] at h2 h3
  -- the range of the second byte keeps the code point above `0xFFFF` and below `0x110000`
  have hb1 : (b0.toNat = 0xF0 → 0x90 ≤ b1.toNat) ∧ (b0.toNat = 0xF4 → b1.toNat ≤ 0x8F) ∧
      0x80 ≤ b1.toNat ∧ b1.toNat ≤ 0xBF := by
    rcases hr with h | h | h | ⟨-, -, -, hlo, hhi⟩ <;> try omega
    subst hlo hhi
    split_ifs at h1 <;> omega
  have hv := toNat_ofNat_char (n := b0.toNat % 8 * 262144 + b1.toNat % 64 * 4096
    + b2.toNat % 64 * 64 + b3.toNat % 64) (by omega)
  simp only [encodeChar, hv]
  rw [if_neg (by omega), if_neg (by omega), if_neg (by omega), ofNat_eq_byte (b := b0) (by omega),
    ofNat_eq_byte (b := b1) (by omega), ofNat_eq_byte (b := b2) (by omega),
    ofNat_eq_byte (b := b3) (by omega)]

theorem inRange_of_not {lo hi n : Nat} (h : ¬(!(decide (lo ≤ n) && decide (n ≤ hi))) = true) :
    lo ≤ n ∧ n ≤ hi := by
  simpa using h

theorem isContinuation_of_not {c : UInt8} (h : ¬(!isContinuation c) = true) :
    isContinuation c = true := by
  simpa using h

theorem flatMap_encodeChar_of_decodeFrom {bs : Bytes} {i : Nat} {cs : List Char}
    (h : decodeFrom bs i = .ok cs) : cs.flatMap encodeChar = bs := by
  -- one case per branch of the decoder; the refusals contradict `h`
  fun_induction decodeFrom bs i generalizing cs with
  | case1 => cases h; rfl
  | case3 b rest i lo hi lead ih =>
    obtain ⟨cs', hcs', rfl⟩ := Except.map_eq_ok.1 h
    have hb := leadRule_eq_some lead
    rw [List.flatMap_cons, encodeChar_one (by omega), ih hcs']
    rfl
  | case6 b i lo hi c1 rest1 hc1 lead _ ih =>
    obtain ⟨cs', hcs', rfl⟩ := Except.map_eq_ok.1 h
    rw [List.flatMap_cons, encodeChar_two lead (inRange_of_not hc1), ih hcs']
    rfl
  | case9 b i lo hi c1 hc1 c2 rest2 hc2 lead _ _ ih =>
    obtain ⟨cs', hcs', rfl⟩ := Except.map_eq_ok.1 h
    rw [List.flatMap_cons, encodeChar_three lead (inRange_of_not hc1) (isContinuation_of_not hc2),
      ih hcs']
    rfl
  | case12 b i w lo hi lead h1 c1 hc1 h2 c2 hc2 h3 c3 rest3 hc3 ih =>
    obtain ⟨cs', hcs', rfl⟩ := Except.map_eq_ok.1 h
    -- the lead byte starts a sequence of at most four bytes, and not of one, two or three
    have hw : w = 4 := by have := leadRule_eq_some lead; omega
    subst hw
    rw [List.flatMap_cons, encodeChar_four lead (inRange_of_not hc1) (isContinuation_of_not hc2)
      (isContinuation_of_not hc3), ih hcs']
    rfl
  | _ => cases h

theorem encode_of_decode {bs : Bytes} {s : String} (h : decode bs = .ok s) : encode s = bs := by
  obtain ⟨cs, hcs, rfl⟩ := Except.map_eq_ok.1 h
  simp only [encode, String.toList_ofList]
  exact flatMap_encodeChar_of_decodeFrom hcs

end ContractAbi.Utf8
