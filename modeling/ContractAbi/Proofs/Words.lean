import ContractAbi.Abi.Codec
import ContractAbi.Proofs.Results
import Mathlib.Data.List.Induction
import Mathlib.Tactic.Linarith
/-!
Words and the length fields of the codec, read back. A word of 32 bytes stands for exactly one
number below `2 ^ 256`, so reading a word and writing the number again gives the word; the same
holds for two's complement words and the signed numbers in `[-2 ^ 255, 2 ^ 255)`. A length field,
a padded payload and a run of equal chunks are each pinned down by what decoding them returns.
-/

namespace ContractAbi

@[simp] theorem wordSize_eq : wordSize = 32 := rfl

theorem machineMax_eq : machineMax = 18446744073709551615 := rfl

/-- The number of words, `2 ^ 256`, as a literal that `omega` reads. -/
theorem pow_two_256 : Nat.pow 2 256 =
    115792089237316195423570985008687907853269984665640564039457584007913129639936 := rfl

theorem pow_two_255 : Nat.pow 2 255 =
    57896044618658097711785492504343953926634992332820282019728792003956564819968 := rfl

theorem int_pow_two_256 : Int.pow 2 256 =
    115792089237316195423570985008687907853269984665640564039457584007913129639936 := rfl

theorem int_pow_two_255 : Int.pow 2 255 =
    57896044618658097711785492504343953926634992332820282019728792003956564819968 := rfl

namespace Bytes

theorem toNat_append_byte (bs : Bytes) (b : UInt8) :
    toNat (bs ++ [b]) = toNat bs * 256 + b.toNat := by
  simp [toNat, List.foldl_append]

theorem toNat_lt (bs : Bytes) : toNat bs < 256 ^ bs.length := by
  induction bs using List.reverseRecOn with
  | nil => simp [toNat]
  | append_singleton bs b ih =>
    rw [toNat_append_byte, List.length_append, List.length_singleton, pow_succ]
    have hb := b.toNat_lt
    nlinarith

theorem ofNat_toNat (bs : Bytes) : ofNat bs.length (toNat bs) = bs := by
  induction bs using List.reverseRecOn with
  | nil => rfl
  | append_singleton bs b ih =>
    rw [List.length_append, List.length_singleton, ofNat, toNat_append_byte]
    have hb := b.toNat_lt
    -- the last byte is the remainder by 256, the rest the quotient
    have hdiv : (toNat bs * 256 + b.toNat) / 256 = toNat bs := by omega
    have hmod : (toNat bs * 256 + b.toNat) % 256 = b.toNat := by omega
    rw [hdiv, hmod, ih, UInt8.ofNat_toNat]

end Bytes

namespace Word

theorem toNat_lt {w : Bytes} (hw : w.length = 32) : toNat w < Nat.pow 2 256 := by
  have h := Bytes.toNat_lt w
  rw [hw] at h
  exact h

theorem ofNat_toNat {w : Bytes} (hw : w.length = 32) : ofNat (toNat w) = w := by
  have h := Bytes.ofNat_toNat w
  rw [hw] at h
  exact h

theorem toNat_ofNat_of_lt {n : Nat} (hn : n < Nat.pow 2 256) : toNat (ofNat n) = n := by
  rw [toNat_ofNat, Nat.mod_eq_of_lt hn]

theorem toNat_ofNat_of_le_machineMax {n : Nat} (hn : n ≤ machineMax) : toNat (ofNat n) = n :=
  toNat_ofNat_of_lt (by rw [pow_two_256]; rw [machineMax_eq] at hn; omega)

theorem toInt_ofNat_emod {x : Int} (lo : -Int.pow 2 255 ≤ x) (hi : x < Int.pow 2 255) :
    toInt (ofNat (x % Int.pow 2 256).toNat) = x := by
  rw [int_pow_two_255] at lo hi
  rw [int_pow_two_256]
  have hlt : (x % 115792089237316195423570985008687907853269984665640564039457584007913129639936).toNat
      < Nat.pow 2 256 := by rw [pow_two_256]; omega
  simp only [toInt, toNat_ofNat_of_lt hlt, pow_two_255, int_pow_two_256]
  split <;> omega

theorem ofNat_toInt_emod {w : Bytes} (hw : w.length = 32) :
    ofNat (toInt w % Int.pow 2 256).toNat = w := by
  have hlt := toNat_lt hw
  have key : (toInt w % Int.pow 2 256).toNat = toNat w := by
    simp only [toInt, pow_two_255, int_pow_two_256]
    rw [pow_two_256] at hlt
    split <;> omega
  rw [key, ofNat_toNat hw]

theorem toInt_bounds {w : Bytes} (hw : w.length = 32) :
    -Int.pow 2 255 ≤ toInt w ∧ toInt w < Int.pow 2 255 := by
  have hlt := toNat_lt hw
  rw [pow_two_256] at hlt
  simp only [toInt, pow_two_255, int_pow_two_256, int_pow_two_255]
  split <;> omega

end Word

namespace Codec

theorem readLength_eq_ok {data : Bytes} {n : Nat} :
    readLength data = .ok n ↔
      32 ≤ data.length ∧ Word.toNat (data.take 32) = n ∧ n ≤ machineMax := by
  unfold readLength
  simp only [wordSize_eq]
  by_cases hshort : data.length < 32
  · simp only [hshort, if_true, reduceCtorEq, false_iff]
    omega
  · by_cases hbig : Word.toNat (data.take 32) > machineMax
    · simp only [hshort, hbig, if_true, if_false, reduceCtorEq, false_iff]
      omega
    · simp only [hshort, hbig, if_false, Except.ok.injEq]
      omega

theorem readLength_word_append {n : Nat} (hn : n ≤ machineMax) (rest : Bytes) :
    readLength (Word.ofNat n ++ rest) = .ok n := by
  rw [readLength_eq_ok]
  have hlen := Word.length_ofNat n
  refine ⟨by simp [hlen], ?_, hn⟩
  rw [List.take_append_of_le_length (by omega), ← hlen, List.take_length,
    Word.toNat_ofNat_of_le_machineMax hn]

theorem paddedLen_eq_ok {len p : Nat} :
    paddedLen len = .ok p ↔ (len + 31) / 32 * 32 = p ∧ p ≤ machineMax := by
  unfold paddedLen
  by_cases hbig : (len + 31) / 32 * 32 > machineMax
  · simp only [hbig, if_true, reduceCtorEq, false_iff]
    omega
  · simp only [hbig, if_false, Except.ok.injEq]
    omega

theorem expectLen_eq_ok {data : Bytes} {n : Nat} : expectLen data n = .ok () ↔ data.length = n := by
  unfold expectLen
  by_cases hshort : data.length < n
  · simp only [hshort, if_true, reduceCtorEq, false_iff]
    omega
  · by_cases hlong : data.length > n
    · simp only [hshort, hlong, if_true, if_false, reduceCtorEq, false_iff]
      omega
    · simp only [hshort, hlong, if_false, true_iff]
      omega

theorem length_encodePadded (bs : Bytes) :
    (encodePadded bs).length = 32 + (bs.length + 31) / 32 * 32 := by
  simp only [encodePadded, List.length_append, Word.length_ofNat, List.length_replicate]
  omega

theorem decodePadded_encodePadded {bs : Bytes} (h : (bs.length + 31) / 32 * 32 ≤ machineMax) :
    decodePadded (encodePadded bs) = .ok bs := by
  have hlen : bs.length ≤ machineMax := by omega
  have hread : readLength (encodePadded bs) = .ok bs.length := by
    rw [encodePadded, List.append_assoc]
    exact readLength_word_append hlen _
  have hpad : paddedLen bs.length = .ok ((bs.length + 31) / 32 * 32) := paddedLen_eq_ok.2 ⟨rfl, h⟩
  have hrest : (encodePadded bs).length - wordSize = (bs.length + 31) / 32 * 32 := by
    rw [length_encodePadded, wordSize_eq]
    omega
  simp only [decodePadded, hread, hpad, hrest, bind, Except.bind, ne_eq, not_true_eq_false,
    if_false, pure, Except.pure]
  -- the data sits right after the length word
  simp only [encodePadded, wordSize_eq, List.append_assoc]
  rw [List.drop_left' (Word.length_ofNat _), List.take_left' rfl]

theorem decodePadded_eq_ok {data bs : Bytes} (h : decodePadded data = .ok bs) :
    32 ≤ data.length ∧ Word.toNat (data.take 32) = bs.length ∧ bs.length ≤ machineMax ∧
      data.length = 32 + (bs.length + 31) / 32 * 32 ∧ bs = (data.drop 32).take bs.length := by
  simp only [decodePadded, Except.bind_eq_ok] at h
  obtain ⟨len, hread, p, hpad, hrest⟩ := h
  obtain ⟨h32, hword, hmax⟩ := readLength_eq_ok.1 hread
  obtain ⟨hp, -⟩ := paddedLen_eq_ok.1 hpad
  simp only [wordSize_eq] at hrest
  by_cases hne : data.length - 32 = p
  · simp only [hne, ne_eq, not_true_eq_false, if_false, Except.pure_eq_ok] at hrest
    subst hrest
    have hlen : ((data.drop 32).take len).length = len := by simp; omega
    refine ⟨h32, by rw [hlen]; exact hword, by rw [hlen]; exact hmax, by rw [hlen]; omega, ?_⟩
    rw [hlen]
  · simp [hne, throw, throwThe, MonadExceptOf.throw, bind, Except.bind] at hrest

theorem length_flatten_of_length_eq {ps : List Bytes} {n : Nat} (h : ∀ p ∈ ps, p.length = n) :
    ps.flatten.length = ps.length * n := by
  rw [List.length_flatten, List.map_congr_left h, List.map_const', List.sum_replicate_nat]

theorem chunks_zero (data : Bytes) (size : Nat) : chunks data size 0 = [] := rfl

theorem chunks_succ (data : Bytes) (size count : Nat) :
    chunks data size (count + 1) = data.take size :: chunks (data.drop size) size count := by
  simp only [chunks, List.range_succ_eq_map, List.map_cons, List.map_map, Nat.zero_mul,
    List.drop_zero, List.cons.injEq, true_and]
  apply List.map_congr_left
  intro k _
  simp only [Function.comp, List.drop_drop, Nat.succ_mul]
  rw [Nat.add_comm]

@[simp] theorem length_chunks (data : Bytes) (size count : Nat) :
    (chunks data size count).length = count := by
  simp [chunks]

theorem chunks_flatten {n : Nat} : ∀ {ps : List Bytes}, (∀ p ∈ ps, p.length = n) →
    chunks ps.flatten n ps.length = ps
  | [], _ => rfl
  | p :: ps, h => by
    have hp : p.length = n := h p List.mem_cons_self
    rw [List.length_cons, chunks_succ, List.flatten_cons, List.take_left' hp,
      List.drop_left' hp, chunks_flatten fun q hq => h q (List.mem_cons_of_mem p hq)]

theorem flatten_chunks {n : Nat} : ∀ {count : Nat} {data : Bytes}, data.length = n * count →
    (chunks data n count).flatten = data
  | 0, data, h => by
    rw [Nat.mul_zero, List.length_eq_zero_iff] at h
    rw [h]
    rfl
  | count + 1, data, h => by
    have hrest : (data.drop n).length = n * count := by
      rw [List.length_drop, h, Nat.mul_succ]
      omega
    rw [chunks_succ, List.flatten_cons, flatten_chunks hrest, List.take_append_drop]

theorem length_of_mem_chunks {n count : Nat} {data : Bytes} (h : n * count ≤ data.length)
    {c : Bytes} (hc : c ∈ chunks data n count) : c.length = n := by
  simp only [chunks, List.mem_map, List.mem_range] at hc
  obtain ⟨k, hk, rfl⟩ := hc
  -- chunk `k` ends at `(k + 1) * n`, inside the buffer
  have hend : (k + 1) * n ≤ n * count := by
    rw [Nat.mul_comm]
    exact Nat.mul_le_mul_left n hk
  simp only [List.length_take, List.length_drop]
  rw [Nat.succ_mul] at hend
  omega

end Codec

end ContractAbi
