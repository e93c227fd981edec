import ContractAbi.Proofs.Framing
import ContractAbi.Abi.I256
/-!
Sign-magnitude integers stand for their numbers. Every constructor, and every decoder that builds
such an integer, leaves zero non-negative (`Normal`). On these integers equality and the order are
those of their numbers. The word of an integer is the two's complement word of its number when it
has one (`toWord_eq`), and reading a word gives back the integer of its two's complement number,
so the 32-byte words and the integers of `[-2 ^ 255, 2 ^ 255)` correspond one to one. The integer
types therefore take exactly the numbers between their bounds and read exactly the words of those
numbers. The codec keeps the numbers themselves and writes and reads the same words
(`encodeWord_eq_encodeScalar`, `decodeWord_map_toInt`).
-/

namespace ContractAbi

theorem compare_eq_of_iff {α β : Type} [LinearOrder α] [LinearOrder β] {a b : α} {c d : β}
    (hlt : a < b ↔ c < d) (heq : a = b ↔ c = d) : compare a b = compare c d := by
  rcases lt_trichotomy a b with h | h | h
  · rw [compare_lt_iff_lt.2 h, compare_lt_iff_lt.2 (hlt.1 h)]
  · rw [compare_eq_iff_eq.2 h, compare_eq_iff_eq.2 (heq.1 h)]
  · have hcd : d < c := by
      rcases lt_trichotomy c d with h' | h' | h'
      · exact absurd (hlt.2 h') (lt_asymm h)
      · exact absurd (heq.2 h') (ne_of_gt h)
      · exact h'
    rw [compare_gt_iff_gt.2 h, compare_gt_iff_gt.2 hcd]

namespace I256

/-- Zero is not negative. -/
def Normal (x : I256) : Prop := x.negative = true → x.abs ≠ 0

theorem new_normal (a : BitVec 256) (n : Bool) : (new a n).Normal := by
  intro h
  simp only [new, Bool.and_eq_true, bne_iff_ne, ne_eq] at h
  exact h.2

theorem zero_normal : zero.Normal := nofun

theorem Normal.abs_pos {x : I256} (hx : x.Normal) (hn : x.negative = true) : 0 < x.abs.toNat := by
  rcases Nat.eq_zero_or_pos x.abs.toNat with h | h
  · exact absurd (BitVec.eq_of_toNat_eq (by rw [h]; rfl)) (hx hn)
  · exact h

theorem abs_lt (x : I256) : x.abs.toNat < Nat.pow 2 256 := by
  rw [Nat.pow_eq]
  exact x.abs.isLt

theorem toInt_of_negative {x : I256} (h : x.negative = true) : x.toInt = -(x.abs.toNat : Int) := by
  simp [toInt, h]

theorem toInt_of_not_negative {x : I256} (h : x.negative = false) : x.toInt = x.abs.toNat := by
  simp [toInt, h]

@[simp] theorem toInt_new (a : BitVec 256) (n : Bool) :
    (new a n).toInt = if n then -(a.toNat : Int) else a.toNat := by
  cases n with
  | false => rfl
  | true =>
    by_cases ha : a = 0
    · subst ha
      rfl
    · have ha' : (a != 0) = true := by simpa using ha
      simp only [new, Bool.true_and, ha', toInt, ↓reduceIte]

theorem toInt_lt_zero_iff {x : I256} (hx : x.Normal) : x.toInt < 0 ↔ x.negative = true := by
  cases hn : x.negative
  · rw [toInt_of_not_negative hn]
    simp
  · rw [toInt_of_negative hn]
    have := hx.abs_pos hn
    simp only [iff_true]
    omega

theorem eq_iff_toInt_eq {x y : I256} (hx : x.Normal) (hy : y.Normal) :
    x = y ↔ x.toInt = y.toInt := by
  refine ⟨fun h => h ▸ rfl, fun h => ?_⟩
  -- the signs agree, since a normal integer is negative exactly when its number is
  have hsign : x.negative = y.negative := by
    rw [Bool.eq_iff_iff, ← toInt_lt_zero_iff hx, ← toInt_lt_zero_iff hy, h]
  have habs : x.abs.toNat = y.abs.toNat := by
    cases hn : x.negative
    · rw [toInt_of_not_negative hn, toInt_of_not_negative (hsign ▸ hn)] at h
      omega
    · rw [toInt_of_negative hn, toInt_of_negative (hsign ▸ hn)] at h
      omega
  obtain ⟨a, n⟩ := x
  obtain ⟨b, m⟩ := y
  dsimp only at hsign habs
  rw [hsign, BitVec.eq_of_toNat_eq habs]

theorem compare_eq {x y : I256} (hx : x.Normal) (hy : y.Normal) :
    compare x y = compare x.toInt y.toInt := by
  show cmp x y = _
  unfold cmp
  split
  · rename_i hn hm
    rw [toInt_of_not_negative hn, toInt_of_not_negative hm]
    exact compare_eq_of_iff (by omega) (by omega)
  · rename_i hn hm
    rw [toInt_of_negative hn, toInt_of_negative hm]
    exact compare_eq_of_iff (by omega) (by omega)
  · rename_i hn hm
    have := hx.abs_pos hn
    rw [toInt_of_negative hn, toInt_of_not_negative hm]
    exact (compare_lt_iff_lt.2 (by omega)).symm
  · rename_i hn hm
    have := hy.abs_pos hm
    rw [toInt_of_not_negative hn, toInt_of_negative hm]
    exact (compare_gt_iff_gt.2 (by omega)).symm

theorem signBit_toNat : signBit.toNat = Nat.pow 2 255 := by
  simp [signBit]

theorem toNat_not_add_one (a : BitVec 256) :
    (~~~a + 1).toNat = (Nat.pow 2 256 - a.toNat) % Nat.pow 2 256 := by
  have h1 : (1 : BitVec 256).toNat = 1 := rfl
  rw [BitVec.toNat_add, BitVec.toNat_not, h1, Nat.pow_eq]
  have := a.isLt
  congr 1
  omega

/-- The word of an integer is the two's complement word of its number, and there is one exactly
for the numbers of `[-2 ^ 255, 2 ^ 255)`. -/
theorem toWord_eq (x : I256) : x.toWord = Word.ofInt? x.toInt := by
  have ha := x.abs_lt
  have hnot := toNat_not_add_one x.abs
  rw [pow_two_256] at ha hnot
  cases hn : x.negative
  · rw [toInt_of_not_negative hn]
    by_cases hs : x.abs.toNat < Nat.pow 2 255
    all_goals
      simp only [toWord, hn, BitVec.le_def, signBit_toNat, Bool.false_eq_true, if_false, ge_iff_le,
        pow_two_255, Word.ofInt?, int_pow_two_255, int_pow_two_256] at hs ⊢
    · rw [if_neg (by omega), if_pos (by omega), Option.map_some]
      congr 2
      omega
    · rw [if_pos (by omega), if_neg (by omega), Option.map_none]
  · rw [toInt_of_negative hn]
    by_cases hs : x.abs.toNat ≤ Nat.pow 2 255
    all_goals
      simp only [toWord, hn, BitVec.lt_def, signBit_toNat, if_true, gt_iff_lt, pow_two_255,
        Word.ofInt?, int_pow_two_255, int_pow_two_256] at hs ⊢
    · rw [if_neg (by omega), if_pos (by omega), Option.map_some, hnot]
      congr 2
      omega
    · rw [if_pos (by omega), if_neg (by omega), Option.map_none]

theorem toWord_eq_some_iff {x : I256} {w : Bytes} :
    x.toWord = some w ↔ (-Int.pow 2 255 ≤ x.toInt ∧ x.toInt < Int.pow 2 255) ∧
      w = Word.ofNat (x.toInt % Int.pow 2 256).toNat := by
  rw [toWord_eq, Word.ofInt?]
  split_ifs with hr
  · simp only [Option.some.injEq, hr, true_and, eq_comm]
  · simp only [hr, false_and]

theorem headD_and_eq_zero_iff {w : Bytes} (hw : w.length = 32) :
    (w.headD 0 &&& 0x80) = 0 ↔ Word.toNat w < Nat.pow 2 255 := by
  obtain ⟨b, rest, rfl⟩ : ∃ b rest, w = b :: rest := by
    cases w with
    | nil => cases hw
    | cons b rest => exact ⟨b, rest, rfl⟩
  have hrest : rest.length = 31 := by simpa using hw
  have hlt := Bytes.toNat_lt rest
  have hbyte : ∀ n < 256, (n &&& 128 = 0 ↔ n < 128) := by decide +kernel
  have hb : Bytes.toNat [b] = b.toNat := by simp [Bytes.toNat]
  have h128 : (0x80 : UInt8).toNat = 128 := rfl
  rw [hrest] at hlt
  rw [List.headD_cons, ← UInt8.toNat_inj, UInt8.toNat_and, h128, UInt8.toNat_zero,
    hbyte b.toNat b.toNat_lt, Word.toNat, show b :: rest = [b] ++ rest from rfl,
    Bytes.toNat_append_mul, hrest, hb, pow_two_255]
  norm_num at hlt ⊢
  omega

theorem toInt_fromWord {w : Bytes} (hw : w.length = 32) : (fromWord w).toInt = Word.toInt w := by
  have hlt := Word.toNat_lt hw
  have hraw : (BitVec.ofNat 256 (Word.toNat w)).toNat = Word.toNat w := by
    rw [BitVec.toNat_ofNat, Nat.mod_eq_of_lt (by rwa [← Nat.pow_eq])]
  unfold fromWord
  split
  · rename_i htop
    have hsmall := (headD_and_eq_zero_iff hw).1 (by simpa using htop)
    simp only [toInt_new, Bool.false_eq_true, if_false, hraw, Word.toInt, if_pos hsmall]
  · rename_i htop
    have hbig : ¬Word.toNat w < Nat.pow 2 255 := fun h =>
      htop (by simpa using (headD_and_eq_zero_iff hw).2 h)
    simp only [toInt_new, if_true, toNat_not_add_one, hraw, Word.toInt, if_neg hbig]
    rw [pow_two_255, pow_two_256] at *
    rw [int_pow_two_256]
    omega

theorem fromWord_normal (w : Bytes) : (fromWord w).Normal := by
  unfold fromWord
  split <;> exact new_normal _ _

theorem toWord_fromWord {w : Bytes} (hw : w.length = 32) : (fromWord w).toWord = some w := by
  rw [toWord_eq, toInt_fromWord hw, Word.ofInt?, if_pos (Word.toInt_bounds hw),
    Word.ofNat_toInt_emod hw]

theorem fromWord_of_toWord {x : I256} {w : Bytes} (hx : x.Normal) (h : x.toWord = some w) :
    fromWord w = x := by
  rw [toWord_eq, Word.ofInt?] at h
  split_ifs at h with hr
  obtain rfl := Option.some.inj h
  refine (eq_iff_toInt_eq (fromWord_normal _) hx).2 ?_
  rw [toInt_fromWord (Word.length_ofNat _), Word.toInt_ofNat_emod hr.1 hr.2]

theorem display_eq {x : I256} (hx : x.Normal) : x.display = toString x.toInt := by
  cases hn : x.negative
  · rw [toInt_of_not_negative hn]
    simp [display, hn]
    rfl
  · have := hx.abs_pos hn
    obtain ⟨k, hk⟩ : ∃ k, x.abs.toNat = k + 1 := ⟨x.abs.toNat - 1, by omega⟩
    rw [toInt_of_negative hn, hk]
    simp only [display, hn, if_true, hk]
    rfl

end I256

namespace IntType

open I256

variable {b : Nat}

theorem lowMask_toNat (hb : b ≤ 256) : (lowMask b).toNat = Nat.pow 2 b - 1 := by
  have hpow : Nat.pow 2 b ≤ Nat.pow 2 256 := by
    rw [Nat.pow_eq, Nat.pow_eq]
    exact Nat.pow_le_pow_right (by norm_num) hb
  have hpos : 0 < Nat.pow 2 256 := by
    rw [Nat.pow_eq]
    positivity
  rw [lowMask, BitVec.toNat_ofNat, ← Nat.pow_eq]
  exact Nat.mod_eq_of_lt (by omega)

theorem natCast_pow_two (k : Nat) : ((Nat.pow 2 k : Nat) : Int) = Int.pow 2 k := by
  rw [Nat.pow_eq, Int.pow_eq, Int.natCast_pow]
  rfl

theorem minValue_normal (t : IntType) : t.minValue.Normal := new_normal _ _

theorem maxValue_normal (t : IntType) : t.maxValue.Normal := new_normal _ _

theorem toInt_minValue (hb0 : 0 < b) (hb : b ≤ 256) :
    (IntType.mk b).minValue.toInt = intMin b := by
  have hlt : Nat.pow 2 (b - 1) < Nat.pow 2 256 := by
    rw [Nat.pow_eq, Nat.pow_eq]
    exact Nat.pow_lt_pow_right (by norm_num) (by omega)
  have hpos : 0 < Nat.pow 2 (b - 1) := by
    rw [Nat.pow_eq]
    positivity
  have h1 : (1 : BitVec 256).toNat = 1 := rfl
  dsimp only [minValue]
  rw [toInt_new, if_pos rfl, BitVec.toNat_add, lowMask_toNat (by omega), h1,
    Nat.sub_add_cancel hpos, ← Nat.pow_eq, Nat.mod_eq_of_lt (by rwa [Nat.pow_eq] at hlt),
    intMin, ← natCast_pow_two, Nat.pow_eq]

theorem toInt_maxValue (hb0 : 0 < b) (hb : b ≤ 256) :
    (IntType.mk b).maxValue.toInt = intMax b := by
  have hpos : 0 < Nat.pow 2 (b - 1) := by
    rw [Nat.pow_eq]
    positivity
  dsimp only [maxValue]
  rw [toInt_new, if_neg (by simp), lowMask_toNat (by omega), intMax, ← natCast_pow_two]
  omega

theorem isValid_iff (hb0 : 0 < b) (hb : b ≤ 256) {x : I256} (hx : x.Normal) :
    (IntType.mk b).isValid x = true ↔ intMin b ≤ x.toInt ∧ x.toInt ≤ intMax b := by
  have hmin := compare_eq hx (minValue_normal (IntType.mk b))
  have hmax := compare_eq hx (maxValue_normal (IntType.mk b))
  rw [toInt_minValue hb0 hb] at hmin
  rw [toInt_maxValue hb0 hb] at hmax
  simp only [isValid, Bool.and_eq_true, bne_iff_ne, ne_eq]
  change ¬compare x _ = _ ∧ ¬compare x _ = _ ↔ _
  rw [hmin, hmax, compare_lt_iff_lt, compare_gt_iff_gt, not_lt, not_lt]

theorem encodeWord_eq_ok (hb0 : 0 < b) (hb : b ≤ 256) {x : I256} {w : Bytes} (hx : x.Normal) :
    (IntType.mk b).encodeWord x = .ok w ↔
      (intMin b ≤ x.toInt ∧ x.toInt ≤ intMax b) ∧ x.toWord = some w := by
  unfold encodeWord
  by_cases hv : (IntType.mk b).isValid x = true
  · have hr := (isValid_iff hb0 hb hx).1 hv
    rw [if_neg (by simp [hv])]
    cases x.toWord <;> simp [hr]
  · rw [if_pos (by simpa using hv)]
    simp only [reduceCtorEq, false_iff]
    exact fun h => hv ((isValid_iff hb0 hb hx).2 h.1)

theorem decodeWord_normal {t : IntType} {w : Bytes} {x : I256} (h : t.decodeWord w = .ok x) :
    x.Normal := by
  simp only [decodeWord] at h
  split_ifs at h
  cases h
  exact fromWord_normal w

theorem decodeWord_eq_ok (hb0 : 0 < b) (hb : b ≤ 256) {w : Bytes} {x : I256} (hw : w.length = 32) :
    (IntType.mk b).decodeWord w = .ok x ↔
      x.Normal ∧ (intMin b ≤ x.toInt ∧ x.toInt ≤ intMax b) ∧ x.toWord = some w := by
  have hn := fromWord_normal w
  unfold decodeWord
  by_cases hv : (IntType.mk b).isValid (fromWord w) = true
  · rw [if_neg (by simp [hv]), Except.ok.injEq]
    constructor
    · rintro rfl
      exact ⟨hn, (isValid_iff hb0 hb hn).1 hv, toWord_fromWord hw⟩
    · rintro ⟨hx, -, hword⟩
      exact fromWord_of_toWord hx hword
  · rw [if_pos (by simpa using hv)]
    simp only [reduceCtorEq, false_iff]
    rintro ⟨hx, hr, hword⟩
    rw [fromWord_of_toWord hx hword] at hv
    exact hv ((isValid_iff hb0 hb hx).2 hr)

theorem encodeWord_eq_encodeScalar (hb0 : 0 < b) (hb : b ≤ 256) {x : I256} (hx : x.Normal) :
    (IntType.mk b).encodeWord x = (StaticType.int b).encodeScalar (.int x.toInt) := by
  have hrange := intRange_le hb0 hb
  unfold encodeWord
  simp only [StaticType.encodeScalar]
  by_cases hr : intMin b ≤ x.toInt ∧ x.toInt ≤ intMax b
  · rw [if_neg (by simpa using (isValid_iff hb0 hb hx).2 hr), if_neg (by omega), toWord_eq,
      Word.ofInt?, if_pos (by omega)]
  · rw [if_pos (by simpa using mt (isValid_iff hb0 hb hx).1 hr), if_pos (by omega)]
    simp only [outOfRange, name, display_eq hx, StaticType.canonicalName]

theorem decodeWord_map_toInt (hb0 : 0 < b) (hb : b ≤ 256) {w : Bytes} (hw : w.length = 32) :
    ((IntType.mk b).decodeWord w).map I256.toInt = StaticType.decodeInt b w := by
  have hn := fromWord_normal w
  unfold decodeWord StaticType.decodeInt
  rw [← toInt_fromWord hw]
  by_cases hr : intMin b ≤ (fromWord w).toInt ∧ (fromWord w).toInt ≤ intMax b
  · rw [if_neg (by simpa using (isValid_iff hb0 hb hn).2 hr), if_neg (by omega)]
    rfl
  · rw [if_pos (by simpa using mt (isValid_iff hb0 hb hn).1 hr), if_pos (by omega)]
    simp only [Except.map, outOfRange, name, display_eq hn]

end IntType

open I256 in
theorem FixedPoint.rawOfBinary64?_normal {f : Binary64} {n : Nat} {r : I256}
    (h : FixedPoint.rawOfBinary64? f n = .ok (some r)) : r.Normal := by
  unfold FixedPoint.rawOfBinary64? at h
  split_ifs at h
  · simp at h
  obtain ⟨o, -, hmap⟩ := Except.map_eq_ok.1 h
  obtain ⟨m, -, rfl⟩ := Option.map_eq_some_iff.1 hmap
  exact new_normal _ _

open I256 in
/-- Sign-magnitude integers whose zero is not negative are a faithful form of the integers. -/
theorem i256_faithful :
    (zero.Normal ∧ (∀ a n, (new a n).Normal) ∧ (∀ v, (ofInt128 v).Normal) ∧
      (∀ v, (ofInt64 v).Normal) ∧ (∀ v, (ofU256 v).Normal) ∧ (∀ w, (fromWord w).Normal) ∧
      (∀ (t : IntType) w x, t.decodeWord w = .ok x → x.Normal) ∧
      (∀ f n r, FixedPoint.rawOfBinary64? f n = .ok (some r) → r.Normal)) ∧
    (∀ x y : I256, x.Normal → y.Normal → (x = y ↔ x.toInt = y.toInt)) ∧
    (∀ x y : I256, x.Normal → y.Normal → compare x y = compare x.toInt y.toInt) ∧
    (∀ (x : I256) (w : Bytes), x.toWord = some w ↔
      (-Int.pow 2 255 ≤ x.toInt ∧ x.toInt < Int.pow 2 255) ∧
        w = Word.ofNat (x.toInt % Int.pow 2 256).toNat) ∧
    (∀ w : Bytes, w.length = 32 →
      (fromWord w).toInt = Word.toInt w ∧
        (-Int.pow 2 255 ≤ (fromWord w).toInt ∧ (fromWord w).toInt < Int.pow 2 255) ∧
        (fromWord w).toWord = some w) ∧
    (∀ (x : I256) (w : Bytes), x.Normal → x.toWord = some w → fromWord w = x) ∧
    (∀ b, validWidth b = true → ∀ x : I256, x.Normal →
      ((IntType.mk b).isValid x = true ↔ intMin b ≤ x.toInt ∧ x.toInt ≤ intMax b)) ∧
    (∀ b, validWidth b = true → ∀ (x : I256) (w : Bytes), x.Normal →
      ((IntType.mk b).encodeWord x = .ok w ↔
        (intMin b ≤ x.toInt ∧ x.toInt ≤ intMax b) ∧ x.toWord = some w)) ∧
    (∀ b, validWidth b = true → ∀ (w : Bytes) (x : I256), w.length = 32 →
      ((IntType.mk b).decodeWord w = .ok x ↔
        x.Normal ∧ (intMin b ≤ x.toInt ∧ x.toInt ≤ intMax b) ∧ x.toWord = some w)) := by
  refine ⟨⟨zero_normal, new_normal, fun _ => new_normal _ _, fun _ => new_normal _ _,
    fun _ => new_normal _ _, fromWord_normal, fun _ _ _ => IntType.decodeWord_normal,
    fun _ _ _ => FixedPoint.rawOfBinary64?_normal⟩,
    fun _ _ => eq_iff_toInt_eq, fun _ _ => compare_eq, fun _ _ => toWord_eq_some_iff,
    fun w hw => ?_, fun _ _ => fromWord_of_toWord, fun b hb => ?_, fun b hb => ?_, fun b hb => ?_⟩
  · exact ⟨toInt_fromWord hw, toInt_fromWord hw ▸ Word.toInt_bounds hw, toWord_fromWord hw⟩
  all_goals obtain ⟨hb0, hb256, -⟩ := StaticType.validWidth_eq_true.1 hb
  · exact fun _ => IntType.isValid_iff hb0 hb256
  · exact fun _ _ => IntType.encodeWord_eq_ok hb0 hb256
  · exact fun _ _ => IntType.decodeWord_eq_ok hb0 hb256

end ContractAbi
