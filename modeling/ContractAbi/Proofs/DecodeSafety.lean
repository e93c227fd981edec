import ContractAbi.Contract.Erc20
import ContractAbi.Proofs.Checked
/-!
Decoding is safe. Every decoder fails only with an error about the buffer: an offset, a length or
a value it holds, or its size. Calldata for a method can also open with another method's
selector, and a contract refuses calldata too short to hold a selector and selectors it has no
method for. Together with the checked runs of `Checked`, over types from the standard registry
and buffers of machine size: decoding runs in bounds and fails only so
(`decode_in_bounds_standard`).
-/

namespace ContractAbi

/-- The errors that report a malformed buffer, as opposed to a bad descriptor, value or selector. -/
def AbiError.isDecodeError : AbiError → Bool
  | .invalidOffset .. | .encodingIncomplete .. | .lengthMismatch .. | .truncatedBuffer ..
  | .lengthOverflow _ | .valueOutOfRange .. | .invalidUtf8 _ => true
  | _ => false

namespace Codec

theorem readLength_errors (data : Bytes) : (readLength data).ErrorsIn (·.isDecodeError) := by
  simp [readLength, AbiError.isDecodeError]

theorem paddedLen_errors (len : Nat) : (paddedLen len).ErrorsIn (·.isDecodeError) := by
  simp [paddedLen, AbiError.isDecodeError]

theorem expectLen_errors (data : Bytes) (n : Nat) : (expectLen data n).ErrorsIn (·.isDecodeError) := by
  simp [expectLen, AbiError.isDecodeError]

theorem decodePadded_errors (data : Bytes) : (decodePadded data).ErrorsIn (·.isDecodeError) := by
  unfold decodePadded
  refine (readLength_errors data).bind fun len _ => (paddedLen_errors len).bind fun padded _ => ?_
  simp [throw, throwThe, MonadExceptOf.throw, AbiError.isDecodeError]

end Codec

namespace StaticType

theorem decodeUint_errors (b : Nat) (w : Bytes) : (decodeUint b w).ErrorsIn (·.isDecodeError) := by
  simp [decodeUint, AbiError.isDecodeError]

theorem decodeInt_errors (b : Nat) (w : Bytes) : (decodeInt b w).ErrorsIn (·.isDecodeError) := by
  simp [decodeInt, AbiError.isDecodeError]

theorem decodeScalar_errors {t : StaticType} (ht : ∀ e k, t ≠ array e k) (w : Bytes) :
    (t.decodeScalar w).ErrorsIn (·.isDecodeError) := by
  cases t with
  | uint b => exact (decodeUint_errors b w).map
  | int b => exact (decodeInt_errors b w).map
  | fixed m n => exact (decodeInt_errors _ w).map
  | ufixed m n =>
    rw [decodeScalar]
    exact ((decodeUint_errors _ w).bind fun _ _ => Except.errorsIn_pure).map
  | bool => simp [decodeScalar, AbiError.isDecodeError]
  | address | function | fixedBytes _ => exact Except.errorsIn_ok
  | array e k => exact absurd rfl (ht e k)

theorem decode_errors (t : StaticType) (data : Bytes) : (t.decode data).ErrorsIn (·.isDecodeError) := by
  induction t generalizing data with
  | array e k ih =>
    rw [decode]
    exact (Codec.expectLen_errors _ _).bind fun _ _ =>
      (Except.errorsIn_mapM fun c _ => ih c).bind fun _ _ => Except.errorsIn_pure
  | _ =>
    rw [decode_scalar (fun _ _ h => by cases h)]
    exact (Codec.expectLen_errors _ _).bind fun _ _ => decodeScalar_errors (fun _ _ h => by cases h) data

theorem decodeElements_errors (e : StaticType) (payload : Bytes) (count : Nat) :
    (e.decodeElements payload count).ErrorsIn (·.isDecodeError) :=
  Except.errorsIn_mapM fun c _ => decode_errors e c

theorem payloadLen_errors (e : StaticType) (count : Nat) :
    (e.payloadLen count).ErrorsIn (·.isDecodeError) := by
  simp [payloadLen, AbiError.isDecodeError]

end StaticType

namespace AbiType

theorem decode_errors (t : AbiType) (data : Bytes) : (t.decode data).ErrorsIn (·.isDecodeError) := by
  cases t with
  | static s => exact s.decode_errors data
  | bytes => exact (Codec.decodePadded_errors data).map
  | string =>
    refine (Codec.decodePadded_errors data).bind fun bs _ => ?_
    cases Utf8.decode bs with
    | ok s => exact Except.errorsIn_pure
    | error e => exact Except.errorsIn_error.2 rfl
  | dynArray e =>
    refine (Codec.readLength_errors data).bind fun count _ =>
      (e.payloadLen_errors count).bind fun payload _ => ?_
    simp only [throw, throwThe, MonadExceptOf.throw, ne_eq, Except.errorsIn_ite]
    refine ⟨fun _ => Except.errorsIn_error.2 rfl, fun _ => ?_⟩
    exact (e.decodeElements_errors _ count).bind fun _ _ => Except.errorsIn_pure

end AbiType

namespace ParameterList

theorem spansFrom_errors (data : Bytes) (H : Nat) :
    ∀ (pos : Nat) (ts : List AbiType) (upper : Nat),
      (spansFrom data H pos ts upper).ErrorsIn (·.isDecodeError)
  | _, [], _ => Except.errorsIn_ok
  | pos, t :: ts, upper => by
    rw [spansFrom]
    refine (spansFrom_errors data H _ ts upper).bind fun r _ => ?_
    obtain ⟨spans, next⟩ := r
    simp [throw, throwThe, MonadExceptOf.throw, AbiError.isDecodeError]

theorem decode_errors (L : ParameterList) (data : Bytes) :
    (L.decode data).ErrorsIn (·.isDecodeError) := by
  unfold decode
  by_cases hshort : data.length < L.headSize
  · simp only [hshort, if_true]
    exact Except.errorsIn_error.2 rfl
  · simp only [hshort, if_false]
    refine (spansFrom_errors data _ 0 L.types data.length).bind fun r _ => ?_
    obtain ⟨spans, first⟩ := r
    by_cases hfirst : first = L.headSize
    · simp only [hfirst, ne_eq, not_true_eq_false, if_false]
      exact Except.errorsIn_mapM fun x _ => x.1.decode_errors _
    · simp only [hfirst, ne_eq, not_false_eq_true, if_true]
      exact Except.errorsIn_error.2 rfl

end ParameterList

theorem Method.decodeCall_errors (m : Method) (data : Bytes) :
    (m.decodeCall data).ErrorsIn fun e => e.isDecodeError ∨
      ∃ found, MethodId.ofInput data = .ok found ∧ found ≠ m.id ∧ e = .selectorMismatch m.id found := by
  unfold Method.decodeCall
  cases hid : MethodId.ofInput data with
  | error _ => exact Except.errorsIn_error.2 (.inl rfl)
  | ok found =>
    by_cases hne : found = m.id
    · simp only [hne, ne_eq, not_true_eq_false, if_false]
      exact (m.inputs.decode_errors _).mono fun _ h => .inl h
    · simp only [hne, ne_eq, not_false_eq_true, if_true]
      exact Except.errorsIn_error.2 (.inr ⟨found, rfl, hne, rfl⟩)

theorem Contract.dispatch_errors (c : Contract) (data : Bytes) :
    (c.dispatch data).ErrorsIn fun e =>
      (data.length < 4 ∧ e = .primitive (.invalidLength .methodId 4 data.length)) ∨
        (∃ id, c.method? id = none ∧ e = .unknownSelector id) ∨
        ∃ e', e = .abi e' ∧ e'.isDecodeError := by
  unfold Contract.dispatch
  cases hid : MethodId.ofInput data with
  | error err =>
    have hshort := MethodId.ofInput_eq_error hid
    rw [hshort.2]
    exact Except.errorsIn_error.2 (.inl ⟨hshort.1, rfl⟩)
  | ok id =>
    simp only [liftPrimitive, Except.ok_bind]
    cases hm : c.method? id with
    | none => exact Except.errorsIn_error.2 (.inr (.inl ⟨id, hm, rfl⟩))
    | some m =>
      have hmid : m.id = id := by
        simpa using List.find?_some hm
      refine Except.ErrorsIn.bind ?_ fun _ _ => Except.errorsIn_pure
      intro e he
      cases hd : m.decodeCall data with
      | ok _ =>
        rw [hd] at he
        cases he
      | error e' =>
        rw [hd] at he
        cases he
        rcases m.decodeCall_errors data e' hd with h | ⟨found, hfound, hne, -⟩
        · exact .inr (.inr ⟨e', rfl, h⟩)
        · -- the method was found by the very selector the calldata opens with
          rw [hid] at hfound
          cases hfound
          exact absurd hmid.symm hne

/-- The decoders run in bounds on machine-sized buffers and fail only with errors about the
buffer, a foreign selector, a short calldata or an unknown selector. -/
theorem decode_in_bounds_standard (L : ParameterList)
    (hL : ∀ t ∈ L.types, ∃ d, Registry.standard.search d = .ok t) (b : Bytes)
    (hb : b.length < machineMax) :
    (Checked.decodeList L b = Checked.lift (L.decode b) ∧
      ∀ e, L.decode b = .error e → e.isDecodeError = true) ∧
    (∀ t : AbiType, (∃ d, Registry.standard.search d = .ok t) →
      Checked.decode t b = Checked.lift (t.decode b) ∧
        ∀ e, t.decode b = .error e → e.isDecodeError = true) ∧
    (∀ m : Method, (∀ t ∈ m.inputs.types, t.WellFormed) →
      Checked.decodeCall m b = Checked.lift (m.decodeCall b) ∧
        ∀ e, m.decodeCall b = .error e → e.isDecodeError = true ∨
          ∃ found, MethodId.ofInput b = .ok found ∧ found ≠ m.id ∧ e = .selectorMismatch m.id found) ∧
    ∀ c : Contract,
      (∀ m ∈ c.methods, ∀ t ∈ m.inputs.types, t.WellFormed) →
      Checked.dispatch c b = Checked.lift (c.dispatch b) ∧
        ∀ e, c.dispatch b = .error e →
          (b.length < 4 ∧ e = .primitive (.invalidLength .methodId 4 b.length)) ∨
            (∃ id, c.method? id = none ∧ e = .unknownSelector id) ∨
            ∃ e', e = .abi e' ∧ e'.isDecodeError = true := by
  refine ⟨⟨Checked.decodeList_eq (Registry.forall_wellFormed _ hL) hb, L.decode_errors b⟩, ?_, ?_, ?_⟩
  · rintro t ⟨d, hd⟩
    exact ⟨Checked.decode_eq (Registry.search_wellFormed _ hd) hb.le, t.decode_errors b⟩
  · intro m hm
    exact ⟨Checked.decodeCall_eq hm hb, m.decodeCall_errors b⟩
  · intro c hc
    exact ⟨Checked.dispatch_eq hc hb, c.dispatch_errors b⟩

theorem decode_in_bounds_standard_sample :
    (∀ t ∈ [AbiType.static (.uint 256), .bytes], ∃ d, Registry.standard.search d = .ok t) ∧
      (List.replicate 64 0 : Bytes).length < machineMax ∧
      Checked.decodeList ⟨[.static (.uint 256), .bytes]⟩ (List.replicate 64 0) =
        Checked.lift ((⟨[.static (.uint 256), .bytes]⟩ : ParameterList).decode (List.replicate 64 0)) ∧
      ∀ e, (⟨[.static (.uint 256), .bytes]⟩ : ParameterList).decode (List.replicate 64 0) = .error e →
        e.isDecodeError = true := by
  have hL : ∀ t ∈ [AbiType.static (.uint 256), .bytes], ∃ d, Registry.standard.search d = .ok t := by
    intro t ht
    simp only [List.mem_cons, List.not_mem_nil, or_false] at ht
    rcases ht with rfl | rfl
    · exact ⟨"uint256", rfl⟩
    · exact ⟨"bytes", rfl⟩
  have hb : (List.replicate 64 0 : Bytes).length < machineMax := by
    simp [machineMax_eq]
  exact ⟨hL, hb, (decode_in_bounds_standard _ hL _ hb).1⟩

/-- Calldata that opens with the selector of `balanceOf` is refused by `transfer` with a selector
mismatch, an error that reports no fault of the encoding. -/
theorem transfer_decodeCall_foreign_selector :
    Erc20Method.transfer.method.decodeCall [0x70, 0xa0, 0x82, 0x31] =
        .error (.selectorMismatch Erc20Method.transfer.method.id ⟨[0x70, 0xa0, 0x82, 0x31], rfl⟩) ∧
      (AbiError.selectorMismatch Erc20Method.transfer.method.id
        ⟨[0x70, 0xa0, 0x82, 0x31], rfl⟩).isDecodeError = false := by
  have hne : (⟨[0x70, 0xa0, 0x82, 0x31], rfl⟩ : MethodId) ≠ Erc20Method.transfer.method.id := by
    decide +kernel
  refine ⟨?_, rfl⟩
  rw [Method.decodeCall, MethodId.ofInput, dif_pos (by decide)]
  exact if_pos hne

end ContractAbi
