import ContractAbi.Proofs.RoundTrip
/-!
The standard encoding of argument lists, written from its rules: a number as a 32-byte big-endian
word, a signed one in two's complement, `bool` as 0 or 1, an address after twelve zero bytes,
`bytesK` followed by zeros, a function reference after eight zero bytes, a fixed-point number as
its raw integer, a fixed array as its elements in turn, a `bytes` or `string` payload as a length
word and the data padded with zeros, a `T[]` payload as a count word and the elements; a list as
the heads of its arguments and then their tails, where a dynamic argument's head is the offset of
its tail: the length of all heads plus that of the tails before it. Encoding produces exactly this
(`ParameterList.encode_eq_standard`).
-/

namespace ContractAbi

namespace Standard

def word (n : Nat) : Bytes :=
  (List.range 32).map fun i => UInt8.ofNat (n / Nat.pow 256 (31 - i))

def twosComplement (x : Int) : Nat :=
  if 0 ≤ x then x.toNat else Nat.pow 2 256 - x.natAbs

end Standard

namespace StaticType

def standard : StaticType → Value → Bytes
  | .uint _, .uint n => Standard.word n
  | .int _, .int x => Standard.word (Standard.twosComplement x)
  | .bool, .bool b => Standard.word (if b then 1 else 0)
  | .address, .address a => List.replicate 12 0 ++ a.bytes
  | .function, .function f => List.replicate 8 0 ++ f.bytes
  | .fixedBytes _, .fixedBytes bs => bs ++ List.replicate (32 - bs.length) 0
  | .fixed _ _, .fixed x => Standard.word (Standard.twosComplement x.raw)
  | .ufixed _ _, .fixed x => Standard.word x.raw.toNat
  | .array e _, .array items => (items.map e.standard).flatten
  | _, _ => []

end StaticType

namespace AbiType

/-- The standard encoding of a value: a dynamic type's is its tail. -/
def standard : AbiType → Value → Bytes
  | .static t, v => t.standard v
  | .bytes, .bytes bs =>
    Standard.word bs.length ++ bs ++ List.replicate ((bs.length + 31) / 32 * 32 - bs.length) 0
  | .string, .string s =>
    Standard.word (Utf8.encode s).length ++ Utf8.encode s ++
      List.replicate (((Utf8.encode s).length + 31) / 32 * 32 - (Utf8.encode s).length) 0
  | .dynArray e, .array items => Standard.word items.length ++ (items.map e.standard).flatten
  | _, _ => []

end AbiType

namespace ParameterList

def standardTail (a : AbiType × Value) : Bytes :=
  if a.1.isDynamic then a.1.standard a.2 else []

/-- The standard tuple encoding: the heads of the arguments, then their tails. -/
def standard (L : ParameterList) (vs : List Value) : Bytes :=
  let args := L.types.zip vs
  let headLen := (L.types.map AbiType.headSize).sum
  (args.mapIdx fun i a =>
      if a.1.isDynamic then Standard.word (headLen + ((args.take i).flatMap standardTail).length)
      else a.1.standard a.2).flatten ++
    args.flatMap standardTail

end ParameterList

theorem Bytes.ofNat_eq_digits : ∀ (w n : Nat),
    Bytes.ofNat w n = (List.range w).map fun i => UInt8.ofNat (n / Nat.pow 256 (w - 1 - i))
  | 0, _ => rfl
  | w + 1, n => by
    rw [Bytes.ofNat, Bytes.ofNat_eq_digits w, List.range_succ, List.map_append, List.map_singleton]
    congr 1
    · apply List.map_congr_left
      intro i hi
      rw [List.mem_range] at hi
      have hpow : Nat.pow 256 (w + 1 - 1 - i) = 256 * Nat.pow 256 (w - 1 - i) := by
        rw [show w + 1 - 1 - i = (w - 1 - i) + 1 by omega, Nat.mul_comm]
        rfl
      rw [Nat.div_div_eq_div_mul, hpow]
    · rw [show w + 1 - 1 - w = 0 by omega, show Nat.pow 256 0 = 1 from rfl, Nat.div_one]
      congr 1
      apply UInt8.toNat.inj
      simp

theorem Word.ofNat_eq_word (n : Nat) : Word.ofNat n = Standard.word n :=
  Bytes.ofNat_eq_digits 32 n

theorem Word.ofNat_emod_eq_word {x : Int} (lo : -Int.pow 2 255 ≤ x) (hi : x < Int.pow 2 255) :
    Word.ofNat (x % Int.pow 2 256).toNat = Standard.word (Standard.twosComplement x) := by
  rw [Word.ofNat_eq_word]
  congr 1
  rw [int_pow_two_255] at lo hi
  simp only [Standard.twosComplement, int_pow_two_256, pow_two_256]
  split <;> omega

namespace StaticType

theorem encodeScalar_eq_standard {t : StaticType} (ht : t.WellFormed) {v : Value}
    (h : t.admits v = true) (hs : ∀ e k, t ≠ array e k) : t.encodeScalar v = .ok (t.standard v) := by
  cases t <;> cases v <;> simp only [admits, Bool.false_eq_true, decide_eq_true_eq, beq_iff_eq] at h
  all_goals try simp only [encodeScalar, standard]
  case uint.uint b n => rw [if_neg (by omega), Word.ofNat_eq_word]
  case int.int b x =>
    have hr := intRange_le ht.1 ht.2.1
    rw [if_neg (by omega), Word.ofNat_emod_eq_word (by omega) (by omega)]
  case bool.bool b => rw [Word.ofNat_eq_word]
  case fixedBytes.fixedBytes l bs => rw [if_neg (by omega), h]
  case fixed.fixed m n x =>
    have hr := intRange_le (by have := ht.1; omega) ht.2.2.2.2
    rw [if_neg (by omega), if_neg (by omega), Word.ofNat_emod_eq_word (by omega) (by omega)]
  case ufixed.fixed m n x => rw [if_neg (by omega), if_neg (by omega), Word.ofNat_eq_word]
  case array.array e k items => exact absurd rfl (hs e k)

theorem encode_eq_standard {t : StaticType} (ht : t.WellFormed) {v : Value}
    (h : t.admits v = true) : t.encode v = .ok (t.standard v) := by
  induction t generalizing v with
  | array e k ih =>
    cases v <;> simp only [admits, Bool.false_eq_true] at h
    case array items =>
      obtain ⟨hk, hall⟩ := admits_array.1 h
      have hparts : items.mapM e.encode = .ok (items.map e.standard) :=
        Except.mapM_eq_ok.2 (List.forall₂_map_right_iff.2
          (List.forall₂_same.2 fun v hv => ih ht.1 (hall v hv)))
      simp only [encode, hk, ne_eq, not_true_eq_false, if_false, hparts, Except.map, standard]
  | _ => exact encodeScalar_eq_standard ht h (fun _ _ h => by cases h)

end StaticType

theorem AbiType.encode_eq_standard {t : AbiType} (ht : t.WellFormed) {v : Value}
    (h : t.admits v = true) : t.encode v = .ok (t.standard v) := by
  cases t with
  | static s => exact StaticType.encode_eq_standard ht h
  | bytes =>
    cases v <;> simp only [admits, Bool.false_eq_true] at h
    simp only [encode, standard, Codec.encodePadded, Word.ofNat_eq_word]
  | string =>
    cases v <;> simp only [admits, Bool.false_eq_true] at h
    simp only [encode, standard, Codec.encodePadded, Word.ofNat_eq_word]
  | dynArray e =>
    cases v <;> simp only [admits, Bool.false_eq_true] at h
    case array items =>
      have hparts : items.mapM e.encode = .ok (items.map e.standard) :=
        Except.mapM_eq_ok.2 (List.forall₂_map_right_iff.2
          (List.forall₂_same.2 fun v hv => StaticType.encode_eq_standard ht (List.all_eq_true.1 h v hv)))
      simp only [encode, hparts, Except.map, standard, Word.ofNat_eq_word]

namespace ParameterList

theorem mapIdx_standard_eq_heads (H : Nat) : ∀ {ts : List AbiType} {vs : List Value}
    (before : Nat), vs.length = ts.length →
    ((ts.zip vs).mapIdx fun i a =>
        if a.1.isDynamic then
          Standard.word (H + before + (((ts.zip vs).take i).flatMap standardTail).length)
        else a.1.standard a.2).flatten =
      heads H ts (List.zipWith AbiType.standard ts vs) before
  | [], [], _, _ => rfl
  | t :: ts, v :: vs, before, hlen => by
    have ih := @mapIdx_standard_eq_heads H ts vs
      (before + (standardTail (t, v)).length) (by simpa using hlen)
    rw [List.zip_cons_cons, List.mapIdx_cons, List.flatten_cons, List.zipWith_cons_cons]
    simp only [List.take_zero, List.flatMap_nil, List.length_nil, Nat.add_zero, List.take_succ_cons,
      List.flatMap_cons, List.length_append]
    by_cases hd : t.isDynamic
    · simp only [hd, if_true, heads, Word.ofNat_eq_word, standardTail] at ih ⊢
      simp only [Nat.add_assoc] at ih ⊢
      rw [ih]
    · simp only [hd, Bool.false_eq_true, if_false, heads, standardTail, List.length_nil,
        Nat.add_zero] at ih ⊢
      rw [← ih]
      simp only [Nat.zero_add]

theorem flatMap_standardTail_eq_tails : ∀ {ts : List AbiType} {vs : List Value},
    vs.length = ts.length →
    (ts.zip vs).flatMap standardTail = tails ts (List.zipWith AbiType.standard ts vs)
  | [], [], _ => rfl
  | t :: ts, v :: vs, hlen => by
    rw [List.zip_cons_cons, List.flatMap_cons, List.zipWith_cons_cons,
      flatMap_standardTail_eq_tails (by simpa using hlen)]
    rfl

theorem standard_eq_layout (L : ParameterList) {vs : List Value} (hlen : vs.length = L.types.length) :
    L.standard vs =
      heads (L.types.map AbiType.headSize).sum L.types (List.zipWith AbiType.standard L.types vs) 0 ++
        tails L.types (List.zipWith AbiType.standard L.types vs) := by
  rw [standard, ← mapIdx_standard_eq_heads _ 0 hlen, flatMap_standardTail_eq_tails hlen]
  simp only [Nat.add_zero]

theorem encodes_standard : ∀ {ts : List AbiType} {vs : List Value}, (∀ t ∈ ts, t.WellFormed) →
    List.Forall₂ (fun t v => t.admits v = true) ts vs →
    Encodes ts vs (List.zipWith AbiType.standard ts vs)
  | [], [], _, .nil => trivial
  | t :: _, _ :: _, hwf, .cons hv h =>
    ⟨AbiType.encode_eq_standard (hwf t List.mem_cons_self) hv,
      encodes_standard (fun t' ht' => hwf t' (List.mem_cons_of_mem t ht')) h⟩

/-- Encoding conforms to the standard tuple encoding, for types from the standard registry and
values that have them, when the encoding is machine-sized. -/
theorem encode_conforms_standard (L : ParameterList)
    (hL : ∀ t ∈ L.types, ∃ d, Registry.standard.search d = .ok t) (vs : List Value)
    (hadm : L.admits vs = true) (hsize : L.encodedSize vs < machineMax) :
    L.encode vs = .ok (L.standard vs) := by
  have hwf := Registry.forall_wellFormed _ hL
  have hall := admits_iff.1 hadm
  obtain ⟨hlayout, hH⟩ := encode_eq_layout hwf hsize (encodes_standard hwf hall)
  rw [hlayout, standard_eq_layout L hall.length_eq.symm, hH]

theorem encode_conforms_standard_sample :
    (∀ t ∈ [AbiType.static .function, .static (.uint 256), .bytes],
        ∃ d, Registry.standard.search d = .ok t) ∧
      (⟨[.static .function, .static (.uint 256), .bytes]⟩ : ParameterList).admits
        [.function ⟨List.replicate 20 0x42 ++ [0xa9, 0x05, 0x9c, 0xbb], rfl⟩, .uint 1000,
          .bytes [1, 2, 3]] = true ∧
      (⟨[.static .function, .static (.uint 256), .bytes]⟩ : ParameterList).encodedSize
        [.function ⟨List.replicate 20 0x42 ++ [0xa9, 0x05, 0x9c, 0xbb], rfl⟩, .uint 1000,
          .bytes [1, 2, 3]] < machineMax ∧
      (⟨[.static .function, .static (.uint 256), .bytes]⟩ : ParameterList).encode
        [.function ⟨List.replicate 20 0x42 ++ [0xa9, 0x05, 0x9c, 0xbb], rfl⟩, .uint 1000,
          .bytes [1, 2, 3]] =
      .ok ((⟨[.static .function, .static (.uint 256), .bytes]⟩ : ParameterList).standard
        [.function ⟨List.replicate 20 0x42 ++ [0xa9, 0x05, 0x9c, 0xbb], rfl⟩, .uint 1000,
          .bytes [1, 2, 3]]) := by
  have hL : ∀ t ∈ [AbiType.static .function, .static (.uint 256), .bytes],
      ∃ d, Registry.standard.search d = .ok t := by
    intro t ht
    simp only [List.mem_cons, List.not_mem_nil, or_false] at ht
    rcases ht with rfl | rfl | rfl
    · exact ⟨"function", rfl⟩
    · exact ⟨"uint256", rfl⟩
    · exact ⟨"bytes", rfl⟩
  have hadm : (⟨[.static .function, .static (.uint 256), .bytes]⟩ : ParameterList).admits
      [.function ⟨List.replicate 20 0x42 ++ [0xa9, 0x05, 0x9c, 0xbb], rfl⟩, .uint 1000,
        .bytes [1, 2, 3]] = true := by decide
  have hsize : (⟨[.static .function, .static (.uint 256), .bytes]⟩ : ParameterList).encodedSize
      [.function ⟨List.replicate 20 0x42 ++ [0xa9, 0x05, 0x9c, 0xbb], rfl⟩, .uint 1000,
        .bytes [1, 2, 3]] < machineMax := by decide
  exact ⟨hL, hadm, hsize, encode_conforms_standard _ hL _ hadm hsize⟩

/-- A function reference is written after eight zero bytes, not before them as a left-aligned
`bytes24`. -/
theorem encode_function_ne_left_aligned :
    (⟨[.static .function]⟩ : ParameterList).encode
        [.function ⟨List.replicate 20 0x42 ++ [0xa9, 0x05, 0x9c, 0xbb], rfl⟩] ≠
      .ok (List.replicate 20 0x42 ++ [0xa9, 0x05, 0x9c, 0xbb] ++ List.replicate 8 0) := by
  have henc : (⟨[.static .function]⟩ : ParameterList).encode
      [.function ⟨List.replicate 20 0x42 ++ [0xa9, 0x05, 0x9c, 0xbb], rfl⟩] =
      .ok (List.replicate 8 0 ++ List.replicate 20 0x42 ++ [0xa9, 0x05, 0x9c, 0xbb]) := rfl
  rw [henc]
  intro h
  exact absurd (Except.ok.inj h) (by decide)

end ParameterList

end ContractAbi
