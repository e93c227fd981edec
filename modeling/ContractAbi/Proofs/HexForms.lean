import ContractAbi.Proofs.Utf8
import ContractAbi.Primitive
import Mathlib.Tactic.IntervalCases

/-! The hex forms of the fixed-width primitives (addresses, hashes, method ids and function
references): what text each reader accepts, what the printer writes, and how the two invert
each other. A text is read through its UTF-8 bytes, so the first part ties those bytes back to
the characters. -/

namespace ContractAbi

namespace Utf8

theorem utf8EncodeChar_eq_encodeChar (c : Char) : String.utf8EncodeChar c = encodeChar c := by
  have hv : c.toNat < 0xD800 ∨ (0xDFFF < c.toNat ∧ c.toNat < 0x110000) := c.valid
  simp only [String.utf8EncodeChar, encodeChar, Char.toNat_val]
  by_cases h1 : c.toNat < 0x80
  · rw [if_pos (by omega), if_pos h1]
  by_cases h2 : c.toNat < 0x800
  · rw [if_neg (by omega), if_pos (by omega), if_neg h1, if_pos h2]
    simp only [List.cons.injEq, and_true]
    constructor <;> congr 1 <;> omega
  by_cases h3 : c.toNat < 0x10000
  · rw [if_neg (by omega), if_neg (by omega), if_pos (by omega), if_neg h1, if_neg h2, if_pos h3]
    simp only [List.cons.injEq, and_true]
    refine ⟨?_, ?_, ?_⟩ <;> congr 1 <;> omega
  · rw [if_neg (by omega), if_neg (by omega), if_neg (by omega), if_neg h1, if_neg h2, if_neg h3]
    simp only [List.cons.injEq, and_true]
    refine ⟨?_, ?_, ?_, ?_⟩ <;> congr 1 <;> omega

theorem byteArray_toList_loop (bs : ByteArray) (i : Nat) (r : List UInt8) :
    ByteArray.toList.loop bs i r = r.reverse ++ bs.data.toList.drop i := by
  fun_induction ByteArray.toList.loop bs i r with
  | case1 i r hi ih =>
    rw [ih, List.reverse_cons, List.append_assoc, List.singleton_append]
    have hi' : i < bs.data.toList.length := by simpa using hi
    rw [List.drop_eq_getElem_cons hi']
    congr 2
    simp [ByteArray.get!, hi]
  | case2 i r hi =>
    have hle : bs.data.toList.length ≤ i := by
      rw [Array.length_toList]
      exact Nat.le_of_not_lt hi
    rw [List.drop_of_length_le hle, List.append_nil]

theorem toList_toByteArray (l : List UInt8) : l.toByteArray.toList = l := by
  rw [ByteArray.toList, byteArray_toList_loop, List.reverse_nil, List.nil_append, List.drop_zero,
    List.toList_data_toByteArray]

theorem toUTF8_toList (s : String) : s.toUTF8.toList = encode s := by
  rw [String.toUTF8_eq_toByteArray, ← String.ofList_toList (s := s), String.toByteArray_ofList,
    String.ofList_toList, List.utf8Encode, toList_toByteArray, encode]
  exact List.flatMap_congr fun c _ => utf8EncodeChar_eq_encodeChar c

theorem flatMap_encodeChar_of_lt {l : List Char} (h : ∀ c ∈ l, c.toNat < 128) :
    l.flatMap encodeChar = l.map fun c => UInt8.ofNat c.toNat := by
  induction l with
  | nil => rfl
  | cons c l ih =>
    have hc : c.toNat < 128 := h c List.mem_cons_self
    rw [List.flatMap_cons, List.map_cons, ih fun d hd => h d (List.mem_cons_of_mem c hd)]
    simp only [encodeChar, if_pos hc, List.singleton_append]

theorem exists_high_byte {c : Char} (h : 128 ≤ c.toNat) : ∃ b ∈ encodeChar c, 128 ≤ b.toNat := by
  have hv : c.toNat < 0xD800 ∨ (0xDFFF < c.toNat ∧ c.toNat < 0x110000) := c.valid
  simp only [encodeChar, if_neg (show ¬c.toNat < 0x80 by omega)]
  split_ifs with h2 h3
  · exact ⟨_, List.mem_cons_self, by rw [toNat_ofNat_byte (by omega)]; omega⟩
  · exact ⟨_, List.mem_cons_self, by rw [toNat_ofNat_byte (by omega)]; omega⟩
  · exact ⟨_, List.mem_cons_self, by rw [toNat_ofNat_byte (by omega)]; omega⟩

end Utf8

theorem toNat_toLower (c : Char) :
    c.toLower.toNat = if 65 ≤ c.toNat ∧ c.toNat ≤ 90 then c.toNat + 32 else c.toNat := by
  unfold Char.toLower
  split
  · rename_i h
    simp only [UInt32.le_iff_toNat_le] at h
    have h' : 65 ≤ c.toNat ∧ c.toNat ≤ 90 := h
    rw [if_pos h']
    show (c.val + ('a'.val - 'A'.val)).toNat = c.toNat + 32
    have hd : ('a'.val - 'A'.val).toNat = 32 := rfl
    rw [UInt32.toNat_add, hd, Char.toNat_val]
    omega
  · rename_i h
    simp only [UInt32.le_iff_toNat_le] at h
    have h' : ¬(65 ≤ c.toNat ∧ c.toNat ≤ 90) := h
    rw [if_neg h']

theorem toList_toLower (s : String) : s.toLower.toList = s.toList.map Char.toLower :=
  String.toList_map ..

theorem toNat_digitChar {v : Nat} (hv : v < 16) :
    (Nat.digitChar v).toNat = if v < 10 then 48 + v else 87 + v := by
  interval_cases v <;> rfl

theorem digitChar_eq_hexDigit {v : Nat} (hv : v < 16) : Nat.digitChar v = Bytes.hexDigit v := by
  interval_cases v <;> rfl

def hexDigits (bs : Bytes) : List Char :=
  bs.flatMap fun b => [Nat.digitChar (b.toNat / 16), Nat.digitChar (b.toNat % 16)]

@[simp] theorem hexDigits_nil : hexDigits [] = [] := rfl

theorem hexDigits_cons (b : UInt8) (bs : Bytes) :
    hexDigits (b :: bs) = Nat.digitChar (b.toNat / 16) :: Nat.digitChar (b.toNat % 16) :: hexDigits bs :=
  rfl

theorem length_hexDigits (bs : Bytes) : (hexDigits bs).length = 2 * bs.length := by
  induction bs with
  | nil => rfl
  | cons b bs ih => rw [hexDigits_cons, List.length_cons, List.length_cons, ih, List.length_cons]; omega

theorem hexDigits_eq_nil {bs : Bytes} : hexDigits bs = [] ↔ bs = [] := by
  rw [← List.length_eq_zero_iff, length_hexDigits, ← List.length_eq_zero_iff]
  omega

theorem exists_of_mem_hexDigits {c : Char} {bs : Bytes} (h : c ∈ hexDigits bs) :
    ∃ v < 16, c = Nat.digitChar v := by
  simp only [hexDigits, List.mem_flatMap, List.mem_cons, List.not_mem_nil, or_false] at h
  obtain ⟨b, -, hb | hb⟩ := h <;> have hlt := b.toNat_lt
  · exact ⟨_, by omega, hb⟩
  · exact ⟨_, by omega, hb⟩

def dropHexMark : List Char → List Char
  | '0' :: 'x' :: rest => rest
  | t => t

example : dropHexMark ['0', 'x', '0', 'x', 'a'] = ['0', 'x', 'a'] := rfl

/-- The text `s` spells the bytes `bs` in hex: after one leading lowercase `0x` if there is one,
two digits per byte, high digit first, each digit in either case. -/
def SpellsHex (s : String) (bs : Bytes) : Prop :=
  (dropHexMark s.toList).map Char.toLower = hexDigits bs

theorem dropHexMark_cons_cons (c₁ c₂ : Char) (rest : List Char) :
    dropHexMark (c₁ :: c₂ :: rest) = if c₁ = '0' ∧ c₂ = 'x' then rest else c₁ :: c₂ :: rest := by
  unfold dropHexMark
  split
  · rename_i heq
    simp only [List.cons.injEq] at heq
    obtain ⟨rfl, rfl, rfl⟩ := heq
    simp
  · rename_i hne
    rw [if_neg]
    rintro ⟨rfl, rfl⟩
    exact hne rest rfl

theorem dropHexMark_of_length_lt {t : List Char} (h : t.length < 2) : dropHexMark t = t := by
  unfold dropHexMark
  split
  · simp only [List.length_cons] at h
    omega
  · rfl

theorem mark_map_toLower_dropHexMark (t : List Char) :
    '0' :: 'x' :: (dropHexMark t).map Char.toLower =
      (if t.take 2 = ['0', 'x'] then t else '0' :: 'x' :: t).map Char.toLower := by
  match t with
  | c₁ :: c₂ :: rest =>
    rw [dropHexMark_cons_cons, List.take_succ_cons, List.take_succ_cons, List.take_zero]
    by_cases hc : c₁ = '0' ∧ c₂ = 'x'
    · obtain ⟨rfl, rfl⟩ := hc
      rw [if_pos ⟨rfl, rfl⟩, if_pos rfl]
      rfl
    · have hne : [c₁, c₂] ≠ ['0', 'x'] := by
        simpa only [ne_eq, List.cons.injEq, and_true] using hc
      rw [if_neg hc, if_neg hne]
      rfl
  | [] | [_] =>
    rw [dropHexMark_of_length_lt (by simp), if_neg (by simp)]
    rfl

theorem mem_of_mem_dropHexMark {c : Char} {t : List Char} (h : c ∈ dropHexMark t) : c ∈ t := by
  match t with
  | c₁ :: c₂ :: rest =>
    rw [dropHexMark_cons_cons] at h
    split_ifs at h
    · exact List.mem_cons_of_mem _ (List.mem_cons_of_mem _ h)
    · exact h
  | [] | [_] => rwa [dropHexMark_of_length_lt (by simp)] at h

theorem mem_dropHexMark {c : Char} {t : List Char} (hc : c ∈ t) (hbig : 128 ≤ c.toNat) :
    c ∈ dropHexMark t := by
  match t with
  | c₁ :: c₂ :: rest =>
    rw [dropHexMark_cons_cons]
    split_ifs with hmark
    · obtain ⟨rfl, rfl⟩ := hmark
      simp only [List.mem_cons] at hc
      rcases hc with rfl | rfl | hc
      · simp at hbig
      · simp at hbig
      · exact hc
    · exact hc
  | [] | [_] => rwa [dropHexMark_of_length_lt (by simp)]

namespace Hex

def lowerChar (b : UInt8) : Char := (Char.ofNat b.toNat).toLower

theorem toNat_lowerChar (b : UInt8) :
    (lowerChar b).toNat = if 65 ≤ b.toNat ∧ b.toNat ≤ 90 then b.toNat + 32 else b.toNat := by
  rw [lowerChar, toNat_toLower, Utf8.toNat_ofNat_char (by have := b.toNat_lt; omega)]

theorem digitValue_eq_some_iff {b : UInt8} {v : Nat} (hv : v < 16) :
    digitValue b = some v ↔ lowerChar b = Nat.digitChar v := by
  rw [← Char.toNat_inj, toNat_lowerChar, toNat_digitChar hv]
  simp only [digitValue]
  split_ifs <;> simp only [Option.some.injEq, false_iff] <;> omega

theorem digitValue_lt {b : UInt8} {v : Nat} (h : digitValue b = some v) : v < 16 := by
  simp only [digitValue] at h
  split_ifs at h <;> simp only [Option.some.injEq] at h <;> omega

theorem lowerChar_ne_digitChar {b : UInt8} (h : digitValue b = none) {v : Nat} (hv : v < 16) :
    lowerChar b ≠ Nat.digitChar v := fun heq => by
  rw [(digitValue_eq_some_iff hv).2 heq] at h
  cases h

theorem digitPair_iff {hi lo b : UInt8} {h l : Nat} (hhi : digitValue hi = some h)
    (hlo : digitValue lo = some l) :
    (lowerChar hi = Nat.digitChar (b.toNat / 16) ∧ lowerChar lo = Nat.digitChar (b.toNat % 16)) ↔
      b = UInt8.ofNat (16 * h + l) := by
  have hh := digitValue_lt hhi
  have hl := digitValue_lt hlo
  have hlt := b.toNat_lt
  have hb : (UInt8.ofNat (16 * h + l)).toNat = 16 * h + l := Utf8.toNat_ofNat_byte (by omega)
  rw [← digitValue_eq_some_iff (show b.toNat / 16 < 16 by omega),
    ← digitValue_eq_some_iff (show b.toNat % 16 < 16 by omega), hhi, hlo, Option.some.injEq,
    Option.some.injEq, ← UInt8.toNat_inj, hb]
  omega

theorem decodePairs_eq_ok {t : Bytes} {i : Nat} {bs : Bytes} :
    t.length % 2 = 0 → (decodePairs t i = .ok bs ↔ t.map lowerChar = hexDigits bs) := by
  fun_induction decodePairs t i generalizing bs with
  | case1 hi lo rest i h l hlo hhi ih =>
    intro heven
    have hrest : rest.length % 2 = 0 := by
      simp only [List.length_cons] at heven
      omega
    rw [Except.map_eq_ok, List.map_cons, List.map_cons]
    constructor
    · rintro ⟨bs', hbs', rfl⟩
      have hpair := (digitPair_iff hhi hlo).2 rfl
      rw [hexDigits_cons, ← (ih hrest).1 hbs', hpair.1, hpair.2]
    · intro heq
      cases bs with
      | nil => cases heq
      | cons b bs' =>
        rw [hexDigits_cons, List.cons.injEq, List.cons.injEq] at heq
        obtain ⟨h1, h2, h3⟩ := heq
        exact ⟨bs', (ih hrest).2 h3, by rw [(digitPair_iff hhi hlo).1 ⟨h1, h2⟩]⟩
  | case2 hi lo rest i hhi =>
    intro _
    refine ⟨(fun h => nomatch h), fun heq => ?_⟩
    cases bs with
    | nil => cases heq
    | cons b bs' =>
      rw [List.map_cons, hexDigits_cons, List.cons.injEq] at heq
      have hlt := b.toNat_lt
      exact (lowerChar_ne_digitChar hhi (by omega) heq.1).elim
  | case3 hi lo rest i h hlo hhi =>
    intro _
    refine ⟨(fun h => nomatch h), fun heq => ?_⟩
    cases bs with
    | nil => cases heq
    | cons b bs' =>
      rw [List.map_cons, List.map_cons, hexDigits_cons, List.cons.injEq, List.cons.injEq] at heq
      have hlt := b.toNat_lt
      exact (lowerChar_ne_digitChar hlo (by omega) heq.2.1).elim
  | case4 t i hnot =>
    intro heven
    match t, hnot, heven with
    | [], _, _ =>
      rw [List.map_nil, eq_comm (a := ([] : List Char)), hexDigits_eq_nil, Except.ok.injEq, eq_comm]
    | [_], _, heven => simp at heven
    | hi :: lo :: rest, hnot, _ => exact (hnot hi lo rest rfl).elim

theorem decode_eq_ok_iff {t bs : Bytes} : decode t = .ok bs ↔ t.map lowerChar = hexDigits bs := by
  unfold decode
  split_ifs with hodd
  · refine ⟨(fun h => nomatch h), fun heq => ?_⟩
    have hlen := congrArg List.length heq
    rw [List.length_map, length_hexDigits] at hlen
    omega
  · exact decodePairs_eq_ok (by omega)

theorem toNat_lt_of_mem_hexDigits {c : Char} {bs : Bytes} (h : c ∈ hexDigits bs) : c.toNat < 128 := by
  obtain ⟨v, hv, rfl⟩ := exists_of_mem_hexDigits h
  rw [toNat_digitChar hv]
  split_ifs <;> omega

theorem lowerChar_not_mem_hexDigits {b : UInt8} (hb : 128 ≤ b.toNat) (bs : Bytes) :
    lowerChar b ∉ hexDigits bs := fun h => by
  have hlt := toNat_lt_of_mem_hexDigits h
  rw [toNat_lowerChar, if_neg (by omega)] at hlt
  omega

theorem stripMark_cons_cons (b₁ b₂ : UInt8) (rest : Bytes) :
    stripMark (b₁ :: b₂ :: rest) = if b₁ = 48 ∧ b₂ = 120 then rest else b₁ :: b₂ :: rest := by
  unfold stripMark
  split
  · rename_i heq
    simp only [List.cons.injEq] at heq
    obtain ⟨rfl, rfl, rfl⟩ := heq
    simp
  · rename_i hne
    rw [if_neg]
    rintro ⟨rfl, rfl⟩
    exact hne rest rfl

theorem stripMark_of_length_lt {t : Bytes} (h : t.length < 2) : stripMark t = t := by
  unfold stripMark
  split
  · simp only [List.length_cons] at h
    omega
  · rfl

theorem mem_stripMark {b : UInt8} {t : Bytes} (hb : b ∈ t) (hbig : 128 ≤ b.toNat) : b ∈ stripMark t := by
  match t with
  | b₁ :: b₂ :: rest =>
    rw [stripMark_cons_cons]
    split_ifs with hmark
    · obtain ⟨rfl, rfl⟩ := hmark
      simp only [List.mem_cons] at hb
      rcases hb with rfl | rfl | hb
      · simp at hbig
      · simp at hbig
      · exact hb
    · exact hb
  | [] | [_] => rwa [stripMark_of_length_lt (by simp)]

theorem lowerChar_ofNat {c : Char} (h : c.toNat < 128) : lowerChar (UInt8.ofNat c.toNat) = c.toLower := by
  rw [lowerChar, Utf8.toNat_ofNat_byte (by omega), Char.ofNat_toNat]

theorem stripMark_map {t : List Char} (h : ∀ c ∈ t, c.toNat < 128) :
    stripMark (t.map fun c => UInt8.ofNat c.toNat) = (dropHexMark t).map fun c => UInt8.ofNat c.toNat := by
  match t with
  | c₁ :: c₂ :: rest =>
    have h₁ : c₁.toNat < 128 := h c₁ List.mem_cons_self
    have h₂ : c₂.toNat < 128 := h c₂ (List.mem_cons_of_mem _ List.mem_cons_self)
    -- the bytes of `c₁ c₂` are `0x` exactly when the characters are
    have hmark : (UInt8.ofNat c₁.toNat = 48 ∧ UInt8.ofNat c₂.toNat = 120) ↔ (c₁ = '0' ∧ c₂ = 'x') := by
      rw [← UInt8.toNat_inj, ← UInt8.toNat_inj, Utf8.toNat_ofNat_byte (by omega),
        Utf8.toNat_ofNat_byte (by omega), ← Char.toNat_inj, ← Char.toNat_inj]
      rfl
    rw [List.map_cons, List.map_cons, stripMark_cons_cons, dropHexMark_cons_cons]
    by_cases hc : c₁ = '0' ∧ c₂ = 'x'
    · rw [if_pos (hmark.2 hc), if_pos hc]
    · rw [if_neg (mt hmark.1 hc), if_neg hc]
      rfl
  | [] | [_] =>
    rw [dropHexMark_of_length_lt (by simp), stripMark_of_length_lt (by simp)]

theorem decodeString_eq_ok_iff {s : String} {bs : Bytes} : decodeString s = .ok bs ↔ SpellsHex s bs := by
  rw [decodeString, Utf8.toUTF8_toList, decode_eq_ok_iff, SpellsHex, Utf8.encode]
  by_cases hascii : ∀ c ∈ s.toList, c.toNat < 128
  · have hlower : (dropHexMark s.toList).map (lowerChar ∘ fun c => UInt8.ofNat c.toNat) =
        (dropHexMark s.toList).map Char.toLower :=
      List.map_congr_left fun c hc => lowerChar_ofNat (hascii c (mem_of_mem_dropHexMark hc))
    rw [Utf8.flatMap_encodeChar_of_lt hascii, stripMark_map hascii, List.map_map, hlower]
  · -- a character past ASCII reads as no hex digit, on either side
    simp only [not_forall, Nat.not_lt] at hascii
    obtain ⟨c, hc, hbig⟩ := hascii
    obtain ⟨b, hb, hbbig⟩ := Utf8.exists_high_byte hbig
    have hbmem : b ∈ stripMark (s.toList.flatMap Utf8.encodeChar) :=
      mem_stripMark (List.mem_flatMap.2 ⟨c, hc, hb⟩) hbbig
    have hlower : c.toLower = c := by
      rw [← Char.toNat_inj, toNat_toLower, if_neg (by omega)]
    refine iff_of_false (fun h => ?_) (fun h => ?_)
    · have hmem := List.mem_map_of_mem (f := lowerChar) hbmem
      rw [h] at hmem
      exact lowerChar_not_mem_hexDigits hbbig bs hmem
    · have hmem := List.mem_map_of_mem (f := Char.toLower) (mem_dropHexMark hc hbig)
      rw [h, hlower] at hmem
      have := toNat_lt_of_mem_hexDigits hmem
      omega

end Hex

theorem toLower_digitChar {v : Nat} (hv : v < 16) : (Nat.digitChar v).toLower = Nat.digitChar v := by
  rw [← Char.toNat_inj, toNat_toLower, toNat_digitChar hv]
  split_ifs <;> omega

theorem map_toLower_hexDigits (bs : Bytes) : (hexDigits bs).map Char.toLower = hexDigits bs := by
  induction bs with
  | nil => rfl
  | cons b bs ih =>
    have hlt := b.toNat_lt
    rw [hexDigits_cons, List.map_cons, List.map_cons, ih, toLower_digitChar (by omega),
      toLower_digitChar (by omega)]

theorem isHexDigit_iff {c : Char} : c.isHexDigit = true ↔ ∃ v < 16, c.toLower = Nat.digitChar v := by
  have hdig : c.isHexDigit = true ↔ ((48 ≤ c.toNat ∧ c.toNat ≤ 57) ∨ (97 ≤ c.toNat ∧ c.toNat ≤ 102)) ∨
      (65 ≤ c.toNat ∧ c.toNat ≤ 70) := by
    simp only [Char.isHexDigit, Char.isDigit, Bool.or_eq_true, Bool.and_eq_true, decide_eq_true_eq,
      UInt32.le_iff_toNat_le, ge_iff_le]
    rfl
  rw [hdig]
  constructor
  · intro h
    refine ⟨if c.toNat ≤ 57 then c.toNat - 48 else if c.toNat ≤ 70 then c.toNat - 55 else c.toNat - 87,
      by split_ifs <;> omega, ?_⟩
    rw [← Char.toNat_inj, toNat_toLower, toNat_digitChar (by split_ifs <;> omega)]
    split_ifs <;> omega
  · rintro ⟨v, hv, heq⟩
    rw [← Char.toNat_inj, toNat_toLower, toNat_digitChar hv] at heq
    split_ifs at heq <;> omega

theorem exists_spells_of_isHexDigit : ∀ {t : List Char} {n : Nat}, t.length = 2 * n →
    (∀ c ∈ t, c.isHexDigit = true) → ∃ bs : Bytes, bs.length = n ∧ t.map Char.toLower = hexDigits bs
  | [], 0, _, _ => ⟨[], rfl, rfl⟩
  | c₁ :: c₂ :: rest, n + 1, hlen, hdig => by
    obtain ⟨v₁, hv₁, h₁⟩ := isHexDigit_iff.1 (hdig c₁ List.mem_cons_self)
    obtain ⟨v₂, hv₂, h₂⟩ := isHexDigit_iff.1 (hdig c₂ (List.mem_cons_of_mem _ List.mem_cons_self))
    obtain ⟨bs, hbs, hrest⟩ := exists_spells_of_isHexDigit (t := rest) (n := n)
      (by simp only [List.length_cons] at hlen; omega)
      fun c hc => hdig c (List.mem_cons_of_mem _ (List.mem_cons_of_mem _ hc))
    have hb : (UInt8.ofNat (16 * v₁ + v₂)).toNat = 16 * v₁ + v₂ := Utf8.toNat_ofNat_byte (by omega)
    refine ⟨UInt8.ofNat (16 * v₁ + v₂) :: bs, by rw [List.length_cons, hbs], ?_⟩
    rw [List.map_cons, List.map_cons, hrest, hexDigits_cons, hb, h₁, h₂,
      show (16 * v₁ + v₂) / 16 = v₁ by omega, show (16 * v₁ + v₂) % 16 = v₂ by omega]
  | [_], _, hlen, _ | [], _ + 1, hlen, _ | _ :: _ :: _, 0, hlen, _ => by
    simp only [List.length_cons, List.length_nil] at hlen
    omega

theorem exists_spells_iff {t : List Char} {n : Nat} :
    (∃ bs : Bytes, bs.length = n ∧ t.map Char.toLower = hexDigits bs) ↔
      t.length = 2 * n ∧ ∀ c ∈ t, c.isHexDigit = true := by
  refine ⟨?_, fun h => exists_spells_of_isHexDigit h.1 h.2⟩
  rintro ⟨bs, rfl, hbs⟩
  refine ⟨by rw [← List.length_map (f := Char.toLower), hbs, length_hexDigits], fun c hc => ?_⟩
  have hmem : c.toLower ∈ hexDigits bs := hbs ▸ List.mem_map_of_mem hc
  obtain ⟨v, hv, hcv⟩ := exists_of_mem_hexDigits hmem
  exact isHexDigit_iff.2 ⟨v, hv, hcv⟩

namespace ByteVec

variable {kind : PrimitiveKind} {n : Nat}

theorem ofBytes_eq_ok {bs : Bytes} {x : ByteVec n} : ofBytes kind n bs = .ok x ↔ x.bytes = bs := by
  unfold ofBytes
  split
  · rename_i h
    obtain ⟨xb, hx⟩ := x
    simp only [Except.ok.injEq, ByteVec.mk.injEq]
    exact eq_comm
  · rename_i h
    exact iff_of_false (fun h => nomatch h) fun hx => h (hx ▸ x.length_eq)

theorem ofHex_eq_ok_iff {s : String} {x : ByteVec n} : ofHex kind n s = .ok x ↔ SpellsHex s x.bytes := by
  rw [← Hex.decodeString_eq_ok_iff]
  unfold ofHex
  cases Hex.decodeString s with
  | error e => exact iff_of_false (fun h => nomatch h) fun h => nomatch h
  | ok bs =>
    rw [ofBytes_eq_ok, Except.ok.injEq, eq_comm]

theorem toHex_eq (x : ByteVec n) : x.toHex = "0x" ++ String.ofList (hexDigits x.bytes) := by
  rw [toHex, Bytes.toHex0x, Bytes.toHex, hexDigits]
  congr 2
  refine List.flatMap_congr fun b _ => ?_
  have hlt := b.toNat_lt
  rw [digitChar_eq_hexDigit (by omega), digitChar_eq_hexDigit (by omega)]

theorem toList_toHex (x : ByteVec n) : x.toHex.toList = '0' :: 'x' :: hexDigits x.bytes := by
  rw [toHex_eq, String.toList_append]
  simp only [String.toList_ofList]
  rfl

theorem ofHex_toHex (x : ByteVec n) : ofHex kind n x.toHex = .ok x := by
  rw [ofHex_eq_ok_iff, SpellsHex, toList_toHex, dropHexMark_cons_cons, if_pos ⟨rfl, rfl⟩,
    map_toLower_hexDigits]

theorem toHex_of_ofHex {s : String} {x : ByteVec n} (h : ofHex kind n s = .ok x) :
    x.toHex = (if s.toList.take 2 = ['0', 'x'] then s else "0x" ++ s).toLower := by
  have hs : (dropHexMark s.toList).map Char.toLower = hexDigits x.bytes := ofHex_eq_ok_iff.1 h
  rw [← String.toList_inj, toList_toHex, ← hs, mark_map_toLower_dropHexMark, toList_toLower,
    apply_ite String.toList, String.toList_append]
  rfl

theorem exists_ofHex_iff {s : String} :
    (∃ x : ByteVec n, ofHex kind n s = .ok x) ↔
      (dropHexMark s.toList).length = 2 * n ∧ ∀ c ∈ dropHexMark s.toList, c.isHexDigit = true := by
  rw [← exists_spells_iff]
  constructor
  · rintro ⟨x, hx⟩
    exact ⟨x.bytes, x.length_eq, ofHex_eq_ok_iff.1 hx⟩
  · rintro ⟨bs, hlen, hbs⟩
    exact ⟨⟨bs, hlen⟩, ofHex_eq_ok_iff.2 hbs⟩

end ByteVec

theorem FunctionRef.address_append_selector (f : FunctionRef) :
    f.address.bytes ++ f.selector.bytes = f.bytes :=
  List.take_append_drop 20 f.bytes

/-- The hex forms of the primitives: what each one reads, and that it reads back what it prints. -/
theorem primitive_hex_forms_exact :
    (∀ (s : String) (a : Address), Address.ofHex s = .ok a ↔ SpellsHex s a.bytes) ∧
    (∀ (s : String) (h : H256), H256.ofHex s = .ok h ↔ SpellsHex s h.bytes) ∧
    (∀ (s : String) (m : MethodId), MethodId.ofHex s = .ok m ↔ SpellsHex s m.bytes) ∧
    (∀ (s : String) (f : FunctionRef), FunctionRef.ofHex s = .ok f ↔
      SpellsHex s (f.address.bytes ++ f.selector.bytes)) ∧
    (∀ (kind : PrimitiveKind) (n : Nat) (s : String),
      (∃ x : ByteVec n, ByteVec.ofHex kind n s = .ok x) ↔
        (dropHexMark s.toList).length = 2 * n ∧ ∀ c ∈ dropHexMark s.toList, c.isHexDigit = true) ∧
    (∀ (kind : PrimitiveKind) (n : Nat) (bs : Bytes) (x : ByteVec n),
      ByteVec.ofBytes kind n bs = .ok x ↔ x.bytes = bs) ∧
    (∀ (n : Nat) (x : ByteVec n), x.toHex = "0x" ++ String.ofList (hexDigits x.bytes)) ∧
    (∀ (kind : PrimitiveKind) (n : Nat) (x : ByteVec n), ByteVec.ofHex kind n x.toHex = .ok x) ∧
    ∀ (kind : PrimitiveKind) (n : Nat) (s : String) (x : ByteVec n),
      ByteVec.ofHex kind n s = .ok x →
        x.toHex = (if s.toList.take 2 = ['0', 'x'] then s else "0x" ++ s).toLower := by
  refine ⟨fun _ _ => ByteVec.ofHex_eq_ok_iff, fun _ _ => ByteVec.ofHex_eq_ok_iff,
    fun _ _ => ByteVec.ofHex_eq_ok_iff, fun s f => ?_, fun _ _ _ => ByteVec.exists_ofHex_iff,
    fun _ _ _ _ => ByteVec.ofBytes_eq_ok, fun _ x => ByteVec.toHex_eq x, fun _ _ => ByteVec.ofHex_toHex,
    fun _ _ _ _ => ByteVec.toHex_of_ofHex⟩
  rw [FunctionRef.address_append_selector]
  exact ByteVec.ofHex_eq_ok_iff

end ContractAbi
