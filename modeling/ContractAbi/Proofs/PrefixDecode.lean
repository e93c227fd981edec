import ContractAbi.Proofs.Framing
/-!
Payloads of `T[]` read from the front of a buffer. The prefix decoder reads a count word and that
many elements and says how many bytes they took; the exact decoder takes a buffer that holds one
payload and nothing more. They read the same payloads: a prefix decode is an exact decode of the
bytes it consumed, and an exact decode of a machine-sized buffer is a prefix decode that consumes
all of it. The bytes after a payload are never read.
-/

namespace ContractAbi

namespace Codec

theorem readLength_take {data : Bytes} {n : Nat} (hn : 32 ≤ n) :
    readLength (data.take n) = readLength data := by
  by_cases hle : data.length ≤ n
  · rw [List.take_of_length_le hle]
  · have hlen : (data.take n).length = n := List.length_take_of_le (by omega)
    have hword : (data.take n).take wordSize = data.take wordSize := by
      rw [List.take_take, Nat.min_eq_left (by rw [wordSize_eq]; exact hn)]
    have hshort : ¬(data.take n).length < wordSize := by rw [hlen, wordSize_eq]; omega
    have hshort' : ¬data.length < wordSize := by rw [wordSize_eq]; omega
    simp only [readLength, hword, if_neg hshort, if_neg hshort']

theorem readLength_append {data : Bytes} (h : 32 ≤ data.length) (rest : Bytes) :
    readLength (data ++ rest) = readLength data := by
  rw [← @readLength_take (data ++ rest) _ h, List.take_left' rfl]

end Codec

namespace StaticType

variable {e : StaticType} {d : Bytes} {items : List Value} {n : Nat}

theorem decodePrefix_eq_ok :
    e.decodePrefix d = .ok (items, n) ↔ ∃ count, Codec.readLength d = .ok count ∧
      n = count * e.fixedSize + 32 ∧ n ≤ machineMax ∧ n ≤ d.length ∧
      e.decodeElements ((d.take n).drop 32) count = .ok items := by
  constructor
  · intro h
    obtain ⟨count, hread, h⟩ := Except.bind_eq_ok.1 h
    obtain ⟨payload, hpay, h⟩ := Except.bind_eq_ok.1 h
    obtain ⟨rfl, -⟩ := payloadLen_eq_ok.1 hpay
    by_cases hmax : count * e.fixedSize + wordSize > machineMax
    · rw [if_pos hmax] at h
      exact nomatch h
    rw [if_neg hmax] at h
    by_cases hlen : d.length < count * e.fixedSize + wordSize
    · rw [if_pos hlen] at h
      exact nomatch h
    rw [if_neg hlen] at h
    obtain ⟨items', hitems, hpure⟩ := Except.bind_eq_ok.1 h
    obtain ⟨rfl, rfl⟩ := Prod.mk.inj (Except.pure_eq_ok.1 hpure)
    simp only [wordSize_eq] at hmax hlen hitems ⊢
    exact ⟨count, hread, rfl, by omega, by omega, hitems⟩
  · rintro ⟨count, hread, rfl, hmax, hlen, hitems⟩
    have hpay : e.payloadLen count = .ok (count * e.fixedSize) := payloadLen_eq_ok.2 ⟨rfl, by omega⟩
    simp only [decodePrefix, hread, hpay, Except.ok_bind, wordSize_eq, if_neg (Nat.not_lt.2 hmax),
      if_neg (Nat.not_lt.2 hlen), hitems]
    rfl

end StaticType

namespace AbiType

variable {e : StaticType} {d : Bytes} {items : List Value}

theorem decode_dynArray_eq_ok :
    (AbiType.dynArray e).decode d = .ok (.array items) ↔ ∃ count, Codec.readLength d = .ok count ∧
      d.length = count * e.fixedSize + 32 ∧ count * e.fixedSize ≤ machineMax ∧
      e.decodeElements (d.drop 32) count = .ok items := by
  constructor
  · intro h
    obtain ⟨count, hread, h⟩ := Except.bind_eq_ok.1 h
    obtain ⟨payload, hpay, h⟩ := Except.bind_eq_ok.1 h
    obtain ⟨rfl, hmax⟩ := StaticType.payloadLen_eq_ok.1 hpay
    obtain ⟨h32, -⟩ := Codec.readLength_eq_ok.1 hread
    by_cases hne : d.length - wordSize ≠ count * e.fixedSize
    · rw [if_pos hne] at h
      exact nomatch h
    rw [if_neg hne] at h
    obtain ⟨items', hitems, hpure⟩ := Except.bind_eq_ok.1 h
    obtain rfl := Value.array.inj (Except.pure_eq_ok.1 hpure)
    simp only [wordSize_eq] at hne hitems
    exact ⟨count, hread, by omega, hmax, hitems⟩
  · rintro ⟨count, hread, hlen, hmax, hitems⟩
    have hpay : e.payloadLen count = .ok (count * e.fixedSize) :=
      StaticType.payloadLen_eq_ok.2 ⟨rfl, hmax⟩
    simp only [decode, hread, hpay, Except.ok_bind, wordSize_eq,
      if_neg (show ¬d.length - 32 ≠ count * e.fixedSize by omega), hitems]
    rfl

end AbiType

namespace StaticType

variable {e : StaticType} {d : Bytes} {items : List Value} {n : Nat}

theorem consumed_of_decodePrefix (h : e.decodePrefix d = .ok (items, n)) :
    n = 32 + Word.toNat (d.take 32) * e.fixedSize := by
  obtain ⟨count, hread, rfl, -⟩ := decodePrefix_eq_ok.1 h
  obtain ⟨-, rfl, -⟩ := Codec.readLength_eq_ok.1 hread
  omega

theorem decode_take_of_decodePrefix (h : e.decodePrefix d = .ok (items, n)) :
    n ≤ d.length ∧ (AbiType.dynArray e).decode (d.take n) = .ok (.array items) := by
  obtain ⟨count, hread, rfl, hmax, hlen, hitems⟩ := decodePrefix_eq_ok.1 h
  refine ⟨hlen, AbiType.decode_dynArray_eq_ok.2 ⟨count, ?_, ?_, by omega, hitems⟩⟩
  · rw [Codec.readLength_take (by omega), hread]
  · exact List.length_take_of_le hlen

/-- A payload that fills the first `n` bytes of a machine-sized buffer is read there by the prefix
decoder. The bound is the one every buffer meets: past it the consumed size would overflow. -/
theorem decodePrefix_of_decode_take (hd : d.length ≤ machineMax) (hn : n ≤ d.length)
    (h : (AbiType.dynArray e).decode (d.take n) = .ok (.array items)) :
    e.decodePrefix d = .ok (items, n) := by
  obtain ⟨count, hread, hlen, -, hitems⟩ := AbiType.decode_dynArray_eq_ok.1 h
  rw [List.length_take_of_le hn] at hlen
  rw [Codec.readLength_take (by omega)] at hread
  exact decodePrefix_eq_ok.2 ⟨count, hread, hlen, by omega, hn, hitems⟩

theorem decodePrefix_append (h : e.decodePrefix d = .ok (items, n)) (rest : Bytes) :
    e.decodePrefix (d ++ rest) = .ok (items, n) := by
  obtain ⟨count, hread, hn, hmax, hlen, hitems⟩ := decodePrefix_eq_ok.1 h
  have htake : (d ++ rest).take n = d.take n := List.take_append_of_le_length hlen
  refine decodePrefix_eq_ok.2 ⟨count, ?_, hn, hmax, ?_, by rw [htake]; exact hitems⟩
  · rw [Codec.readLength_append (by omega), hread]
  · rw [List.length_append]
    omega

theorem decode_iff_decodePrefix (hd : d.length ≤ machineMax) :
    (AbiType.dynArray e).decode d = .ok (.array items) ↔ e.decodePrefix d = .ok (items, d.length) := by
  constructor
  · intro h
    exact decodePrefix_of_decode_take hd le_rfl (by rw [List.take_length]; exact h)
  · intro h
    have hdec := (decode_take_of_decodePrefix h).2
    rwa [List.take_length] at hdec

end StaticType

/-- The prefix decoder of `T[]` agrees with the exact one. -/
theorem decodePrefix_agrees_decode (e : StaticType) (d : Bytes) (hd : d.length ≤ machineMax) :
    (∀ items n, e.decodePrefix d = .ok (items, n) ↔
      n ≤ d.length ∧ (AbiType.dynArray e).decode (d.take n) = .ok (.array items)) ∧
    (∀ items n, e.decodePrefix d = .ok (items, n) →
      n = 32 + Word.toNat (d.take 32) * e.fixedSize ∧
      ∀ rest, e.decodePrefix (d ++ rest) = .ok (items, n)) ∧
    ∀ items, (AbiType.dynArray e).decode d = .ok (.array items) ↔
      e.decodePrefix d = .ok (items, d.length) :=
  ⟨fun _ _ => ⟨StaticType.decode_take_of_decodePrefix,
      fun ⟨hn, h⟩ => StaticType.decodePrefix_of_decode_take hd hn h⟩,
    fun _ _ h => ⟨StaticType.consumed_of_decodePrefix h, StaticType.decodePrefix_append h⟩,
    fun _ => StaticType.decode_iff_decodePrefix hd⟩

end ContractAbi

namespace ContractAbi

theorem decodePrefix_agrees_decode_sample :
    (Word.ofNat 1 ++ Word.ofNat 7 ++ [0xaa]).length ≤ machineMax ∧
    (∀ items n, (StaticType.uint 256).decodePrefix (Word.ofNat 1 ++ Word.ofNat 7 ++ [0xaa]) =
        .ok (items, n) ↔
      n ≤ (Word.ofNat 1 ++ Word.ofNat 7 ++ [0xaa]).length ∧
      (AbiType.dynArray (.uint 256)).decode ((Word.ofNat 1 ++ Word.ofNat 7 ++ [0xaa]).take n) =
        .ok (.array items)) ∧
    (∀ items n, (StaticType.uint 256).decodePrefix (Word.ofNat 1 ++ Word.ofNat 7 ++ [0xaa]) =
        .ok (items, n) →
      n = 32 + Word.toNat ((Word.ofNat 1 ++ Word.ofNat 7 ++ [0xaa]).take 32) *
        (StaticType.uint 256).fixedSize ∧
      ∀ rest, (StaticType.uint 256).decodePrefix (Word.ofNat 1 ++ Word.ofNat 7 ++ [0xaa] ++ rest) =
        .ok (items, n)) ∧
    ∀ items, (AbiType.dynArray (.uint 256)).decode (Word.ofNat 1 ++ Word.ofNat 7 ++ [0xaa]) =
        .ok (.array items) ↔
      (StaticType.uint 256).decodePrefix (Word.ofNat 1 ++ Word.ofNat 7 ++ [0xaa]) =
        .ok (items, (Word.ofNat 1 ++ Word.ofNat 7 ++ [0xaa]).length) := by
  have hd : (Word.ofNat 1 ++ Word.ofNat 7 ++ [0xaa]).length ≤ machineMax := by decide
  exact ⟨hd, decodePrefix_agrees_decode _ _ hd⟩

end ContractAbi
