import ContractAbi.Proofs.Erc20Calls
/-!
Text replies of token reads. A standard token answers `name` and `symbol` with one ABI `string`,
which takes at least two words; some early tokens answer with a `bytes32`. The processor reads a
reply of more than two words as a string and anything shorter as text up to the first zero byte.
Every non-empty standard reply is longer than two words and reads back as its string
(`stringResult_standard`), and every legacy word whose text is non-empty UTF-8 reads as that text
(`stringResult_legacy`). The standard reply of the empty string is exactly two words, opening
with a zero byte, so it is taken for a legacy word with no text (`stringResult_standard_empty`).
So each form reads back exactly when its text is not empty (`stringResult_replies_exact`).
-/

namespace ContractAbi

theorem encode_string_reply (s : String) :
    ParameterList.encode ⟨[.string]⟩ [.string s] =
      .ok (Word.ofNat 32 ++ Codec.encodePadded (Utf8.encode s)) := by
  have hmax : ¬(32 + 0 > machineMax) := by rw [machineMax_eq]; omega
  simp [ParameterList.encode, ParameterList.encodeParts, ParameterList.headSize, AbiType.headSize,
    AbiType.encode, machineMax_eq]

theorem length_string_reply (s : String) :
    (Word.ofNat 32 ++ Codec.encodePadded (Utf8.encode s)).length =
      64 + ((Utf8.encode s).length + 31) / 32 * 32 := by
  rw [List.length_append, Word.length_ofNat, Codec.length_encodePadded]
  omega

theorem utf8_encode_eq_nil {s : String} : Utf8.encode s = [] ↔ s = "" := by
  constructor
  · intro h
    have hdec := Utf8.decode_encode s
    rw [h] at hdec
    exact (Except.ok.inj hdec).symm
  · rintro rfl
    rfl

variable {data : Bytes}

theorem stringResult_of_long (hlong : 64 < data.length) {s : String}
    (h : Erc20Method.name.method.decodeOutput data = .ok [.string s]) : stringResult data = .ok s := by
  have hne : ¬data.isEmpty = true := by
    rw [List.isEmpty_iff]
    exact List.ne_nil_of_length_pos (by omega)
  have hfirst : firstOutput .name data = .ok (.string s) := by
    rw [firstOutput, h, liftAbi, Except.ok_bind]
    rfl
  simp only [stringResult, hne, wordSize_eq, show data.length > 2 * 32 by omega,
    if_true, hfirst, Except.ok_bind]
  rfl

theorem stringResult_of_short (hshort : data.length ≤ 64) {p : String}
    (hp : Utf8.encode p = data.takeWhile (· != 0)) (hne : p ≠ "") : stringResult data = .ok p := by
  have htext : ¬(data.takeWhile (· != 0)).isEmpty = true := by
    rw [List.isEmpty_iff, ← hp]
    exact fun h => hne (utf8_encode_eq_nil.1 h)
  have hdata : ¬data.isEmpty = true := by
    intro h
    rw [List.isEmpty_iff.1 h] at htext
    exact htext rfl
  have hdec : Utf8.decode (data.takeWhile (· != 0)) = .ok p := by
    rw [← hp]
    exact Utf8.decode_encode p
  simp only [stringResult, hdata, if_false, wordSize_eq, show ¬data.length > 2 * 32 by omega,
    htext, hdec]
  rfl

/-- A standard reply of a non-empty string reads back as the string. Strings hold fewer than
`2 ^ 63` bytes. -/
theorem stringResult_standard {s : String} (hs : s ≠ "") (hsize : (Utf8.encode s).length < Nat.pow 2 63) :
    ∃ b, ParameterList.encode ⟨[.string]⟩ [.string s] = .ok b ∧ stringResult b = .ok s := by
  have henc := encode_string_reply s
  refine ⟨_, henc, stringResult_of_long ?_ ?_⟩
  · have hpos : 0 < (Utf8.encode s).length :=
      List.length_pos_of_ne_nil fun h => hs (utf8_encode_eq_nil.1 h)
    rw [length_string_reply]
    omega
  · have hwf : ∀ t ∈ (⟨[.string]⟩ : ParameterList).types, t.WellFormed := by
      simp [AbiType.WellFormed]
    have hmax : (⟨[.string]⟩ : ParameterList).encodedSize [.string s] < machineMax := by
      simp only [ParameterList.encodedSize, List.zipWith_cons_cons, List.zipWith_nil_left,
        List.sum_cons, List.sum_nil, AbiType.headSize, AbiType.isDynamic, if_true,
        AbiType.encodedSize, wordSize_eq, machineMax_eq]
      rw [show Nat.pow 2 63 = 9223372036854775808 from rfl] at hsize
      -- the sum's addition comes from the list's algebra; restate it on numbers
      show 32 + (32 + ((Utf8.encode s).length + 31) / 32 * 32) + 0 < 18446744073709551615
      omega
    exact (ParameterList.decode_of_encode hwf hmax henc).1

theorem stringResult_legacy {w : Bytes} (hw : w.length = 32) {p : String}
    (hp : Utf8.encode p = w.takeWhile (· != 0)) (hne : p ≠ "") : stringResult w = .ok p :=
  stringResult_of_short (by omega) hp hne

theorem stringResult_of_blank (hne : data ≠ []) (hshort : data.length ≤ 64)
    (htext : data.takeWhile (· != 0) = []) :
    stringResult data = .error (.invalidResult "zero length value") := by
  have hdata : ¬data.isEmpty = true := by
    rw [List.isEmpty_iff]
    exact hne
  simp only [stringResult, hdata, if_false, wordSize_eq, show ¬data.length > 2 * 32 by omega,
    htext, List.isEmpty_nil, if_true]
  rfl

/-- Exactly when each reply form reads back as its text: a standard reply when its string is not
empty, a legacy word when its text before the first zero byte is not empty. -/
theorem stringResult_replies_exact (s : String) (hsize : (Utf8.encode s).length < Nat.pow 2 63)
    (w : Bytes) (hw : w.length = 32) (p : String) (hp : Utf8.encode p = w.takeWhile (· != 0)) :
    ((∃ b, ParameterList.encode ⟨[.string]⟩ [.string s] = .ok b ∧ stringResult b = .ok s) ↔
      s ≠ "") ∧ (stringResult w = .ok p ↔ p ≠ "") := by
  refine ⟨⟨?_, fun hs => stringResult_standard hs hsize⟩, ⟨?_, stringResult_legacy hw hp⟩⟩
  · rintro ⟨b, hb, hread⟩ rfl
    rw [encode_string_reply, Except.ok.injEq] at hb
    subst hb
    -- the empty string's reply is two words, the first opening with a zero byte
    have hlen : (Word.ofNat 32 ++ Codec.encodePadded (Utf8.encode "")).length = 64 := by
      rw [length_string_reply]
      rfl
    rw [stringResult_of_blank (List.ne_nil_of_length_pos (by omega)) hlen.le rfl] at hread
    exact nomatch hread
  · rintro hread rfl
    have hne : w ≠ [] := List.ne_nil_of_length_pos (by omega)
    rw [stringResult_of_blank hne (by omega) hp.symm] at hread
    exact nomatch hread

theorem stringResult_replies_exact_blank :
    (Utf8.encode "").length < Nat.pow 2 63 ∧ (List.replicate 32 (0 : UInt8)).length = 32 ∧
      Utf8.encode "" = (List.replicate 32 (0 : UInt8)).takeWhile (· != 0) ∧
      (((∃ b, ParameterList.encode ⟨[.string]⟩ [.string ""] = .ok b ∧ stringResult b = .ok "") ↔
        "" ≠ "") ∧ (stringResult (List.replicate 32 0) = .ok "" ↔ "" ≠ "")) :=
  ⟨by decide, List.length_replicate, rfl,
    stringResult_replies_exact "" (by decide) (List.replicate 32 0) List.length_replicate "" rfl⟩

/-- The standard reply of the empty string is two words opening with a zero byte, which the
processor refuses as a legacy word with no text. -/
theorem stringResult_standard_empty :
    ∃ b, ParameterList.encode ⟨[.string]⟩ [.string ""] = .ok b ∧ b.length = 64 ∧
      stringResult b = .error (.invalidResult "zero length value") :=
  ⟨_, encode_string_reply "", rfl, rfl⟩

end ContractAbi
