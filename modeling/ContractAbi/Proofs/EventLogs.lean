import ContractAbi.Proofs.Erc20Calls
/-!
ERC-20 logs. A log is a Transfer or an Approval when it has three topics and data, and its first
topic is one of the two event ids. Its data must then be the amount as one `uint256` word, or
decoding fails with a codec error. The two ids are distinct Keccak-256 hashes
(`transferId_ne_approvalId`), so the first topic alone picks the event. The addresses are read
from the low 20 bytes of the other two topics, where `topics` writes them.
-/

namespace ContractAbi

namespace Erc20Event

/-- The two event ids differ: the kernel hashes both signatures in this one check. -/
theorem transferId_ne_approvalId : transferId ≠ approvalId := by
  decide +kernel

theorem amount_wellFormed : ∀ t ∈ (⟨[.static (.uint 256)]⟩ : ParameterList).types, t.WellFormed := by
  simp [AbiType.WellFormed, StaticType.WellFormed]

theorem encode_amount {n : Nat} (hn : n < Nat.pow 2 256) :
    ParameterList.encode ⟨[.static (.uint 256)]⟩ [.uint n] = .ok (Word.ofNat n) := by
  have hle : ¬n > uintMax 256 := by simp only [uintMax]; omega
  simp [ParameterList.encode, ParameterList.encodeParts, StaticType.encode,
    StaticType.encodeScalar, hle]

theorem decode_amount {d : Bytes} (hd : d.length = 32) :
    ParameterList.decode ⟨[.static (.uint 256)]⟩ d = .ok [.uint (Word.toNat d)] := by
  have henc := encode_amount (Word.toNat_lt hd)
  rw [Word.ofNat_toNat hd] at henc
  have hsize : (⟨[.static (.uint 256)]⟩ : ParameterList).encodedSize [.uint (Word.toNat d)] <
      machineMax := by
    simp [ParameterList.encodedSize, AbiType.headSize, AbiType.isDynamic, StaticType.fixedSize,
      machineMax_eq]
  exact (ParameterList.decode_of_encode amount_wellFormed hsize henc).1

theorem length_of_decode_amount {d : Bytes} {vs : List Value}
    (h : ParameterList.decode ⟨[.static (.uint 256)]⟩ d = .ok vs) : d.length = 32 := by
  obtain ⟨spans, -, hs, -⟩ := ParameterList.decode_eq_ok h
  -- with no dynamic argument the scan ends at the end of the data, and it must end at the head
  have hfirst := ParameterList.first_of_spansFrom hs
  simp only [List.any_cons, List.any_nil, AbiType.isDynamic, Bool.or_false, Bool.false_eq_true,
    if_false] at hfirst
  rw [← hfirst]
  rfl

/-- A log that is no ERC-20 event: not three topics, no data, or a first topic that is neither
event id. -/
def Foreign (ts : List H256) (d : Bytes) : Prop :=
  ts.length ≠ 3 ∨ d = [] ∨ (ts.head? ≠ some transferId ∧ ts.head? ≠ some approvalId)

variable {ts : List H256} {d : Bytes} {a b : H256}

theorem decode_foreign (h : Foreign ts d) : decode ts d = .ok none := by
  match ts, h with
  | [id, a, b], h =>
    simp only [Foreign, List.length_cons, List.length_nil, ne_eq, not_true_eq_false,
      List.head?_cons, Option.some.injEq, false_or] at h
    rcases h with rfl | hid
    · rfl
    · simp only [decode, hid, ne_eq, not_false_eq_true, and_self, if_true]
      split_ifs <;> rfl
  | [], _ | [_], _ | [_, _], _ | _ :: _ :: _ :: _ :: _, _ => rfl

theorem decode_amount_word {id : H256} (hid : id = transferId ∨ id = approvalId)
    (hd : d.length = 32) :
    decode [id, a, b] d = if id = transferId
      then .ok (some (.transfer a.lowAddress b.lowAddress (Word.toNat d)))
      else .ok (some (.approval a.lowAddress b.lowAddress (Word.toNat d))) := by
  have hempty : ¬d.isEmpty = true := by
    rw [List.isEmpty_iff]
    exact List.ne_nil_of_length_pos (by omega)
  have hknown : ¬(id ≠ transferId ∧ id ≠ approvalId) := fun h => hid.elim h.1 h.2
  rw [decode, if_neg hempty, if_neg hknown, decode_amount hd, liftAbi, Except.ok_bind,
    Erc20Call.uintAt, List.getElem?_cons_zero]
  dsimp only
  rw [Except.ok_bind]
  -- the event is picked by rewriting: deciding the equation of two ids would hash them
  by_cases ht : id = transferId
  · rw [if_pos ht, if_pos ht]
    rfl
  · rw [if_neg ht, if_neg ht]
    rfl

theorem decode_transfer (hd : d.length = 32) :
    decode [transferId, a, b] d = .ok (some (.transfer a.lowAddress b.lowAddress (Word.toNat d))) := by
  rw [decode_amount_word (.inl rfl) hd, if_pos rfl]

theorem decode_approval (hd : d.length = 32) :
    decode [approvalId, a, b] d = .ok (some (.approval a.lowAddress b.lowAddress (Word.toNat d))) := by
  rw [decode_amount_word (.inr rfl) hd, if_neg (Ne.symm transferId_ne_approvalId)]

theorem decode_bad_amount {id : H256} (hid : id = transferId ∨ id = approvalId) (hne : d ≠ [])
    (hd : d.length ≠ 32) : ∃ err, decode [id, a, b] d = .error (.abi err) := by
  cases hdec : ParameterList.decode ⟨[.static (.uint 256)]⟩ d with
  | ok vs => exact absurd (length_of_decode_amount hdec) hd
  | error err =>
    refine ⟨err, ?_⟩
    have hknown : ¬(id ≠ transferId ∧ id ≠ approvalId) := fun h => hid.elim h.1 h.2
    simp only [decode, List.isEmpty_iff, hne, if_false, hknown, hdec, liftAbi]
    rfl

/-- Every log is foreign, an event with a one-word amount, or an event whose data is no amount. -/
theorem decode_cases (ts : List H256) (d : Bytes) :
    Foreign ts d ∨
      (∃ a b, d.length = 32 ∧ (ts = [transferId, a, b] ∨ ts = [approvalId, a, b])) ∨
      ∃ id a b, ts = [id, a, b] ∧ (id = transferId ∨ id = approvalId) ∧ d ≠ [] ∧ d.length ≠ 32 := by
  match ts with
  | [id, a, b] =>
    by_cases hd : d = []
    · exact .inl (.inr (.inl hd))
    by_cases hid : id = transferId ∨ id = approvalId
    · by_cases hlen : d.length = 32
      · rcases hid with rfl | rfl
        · exact .inr (.inl ⟨a, b, hlen, .inl rfl⟩)
        · exact .inr (.inl ⟨a, b, hlen, .inr rfl⟩)
      · exact .inr (.inr ⟨id, a, b, rfl, hid, hd, hlen⟩)
    · refine .inl (.inr (.inr ?_))
      simp only [List.head?_cons, ne_eq, Option.some.injEq]
      exact not_or.1 hid
  | [] | [_] | [_, _] | _ :: _ :: _ :: _ :: _ => exact .inl (.inl (by simp))

theorem decode_eq_none_iff : decode ts d = .ok none ↔ Foreign ts d := by
  refine ⟨fun h => ?_, decode_foreign⟩
  rcases decode_cases ts d with hf | ⟨a, b, hlen, rfl | rfl⟩ | ⟨id, a, b, rfl, hid, hne, hlen⟩
  · exact hf
  · rw [decode_transfer hlen] at h
    cases h
  · rw [decode_approval hlen] at h
    cases h
  · obtain ⟨err, herr⟩ := decode_bad_amount (a := a) (b := b) hid hne hlen
    rw [herr] at h
    cases h

theorem decode_eq_some_iff {e : Erc20Event} :
    decode ts d = .ok (some e) ↔ ∃ a b, d.length = 32 ∧
      (ts = [transferId, a, b] ∧ e = .transfer a.lowAddress b.lowAddress (Word.toNat d) ∨
        ts = [approvalId, a, b] ∧ e = .approval a.lowAddress b.lowAddress (Word.toNat d)) := by
  constructor
  · intro h
    rcases decode_cases ts d with hf | ⟨a, b, hlen, rfl | rfl⟩ | ⟨id, a, b, rfl, hid, hne, hlen⟩
    · rw [decode_foreign hf] at h
      cases h
    · rw [decode_transfer hlen] at h
      exact ⟨a, b, hlen, .inl ⟨rfl, (Option.some.inj (Except.ok.inj h)).symm⟩⟩
    · rw [decode_approval hlen] at h
      exact ⟨a, b, hlen, .inr ⟨rfl, (Option.some.inj (Except.ok.inj h)).symm⟩⟩
    · obtain ⟨err, herr⟩ := decode_bad_amount (a := a) (b := b) hid hne hlen
      rw [herr] at h
      cases h
  · rintro ⟨a, b, hlen, ⟨rfl, rfl⟩ | ⟨rfl, rfl⟩⟩
    · exact decode_transfer hlen
    · exact decode_approval hlen

theorem decode_eq_error_iff :
    (∃ err, decode ts d = .error (.abi err)) ↔
      ∃ id a b, ts = [id, a, b] ∧ (id = transferId ∨ id = approvalId) ∧ d ≠ [] ∧ d.length ≠ 32 := by
  constructor
  · rintro ⟨err, h⟩
    rcases decode_cases ts d with hf | ⟨a, b, hlen, rfl | rfl⟩ | hbad
    · rw [decode_foreign hf] at h
      cases h
    · rw [decode_transfer hlen] at h
      cases h
    · rw [decode_approval hlen] at h
      cases h
    · exact hbad
  · rintro ⟨id, a, b, rfl, hid, hne, hlen⟩
    exact decode_bad_amount hid hne hlen

@[simp] theorem lowAddress_toWord (x : Address) : x.toWord.lowAddress = x :=
  ByteVec.lastOf_append _ x

theorem decode_topics_data (e : Erc20Event) (hv : e.value < Nat.pow 2 256) :
    ∃ d, e.data = .ok d ∧ decode e.topics d = .ok (some e) := by
  have hlen := Word.length_ofNat e.value
  refine ⟨Word.ofNat e.value, by rw [data, encode_amount hv]; rfl, ?_⟩
  cases e with
  | transfer a b v =>
    rw [topics, eventId, decode_transfer hlen, lowAddress_toWord, lowAddress_toWord,
      Word.toNat_ofNat_of_lt hv]
    rfl
  | approval a b v =>
    rw [topics, eventId, decode_approval hlen, lowAddress_toWord, lowAddress_toWord,
      Word.toNat_ofNat_of_lt hv]
    rfl

end Erc20Event

/-- The ERC-20 log decoder is exact. -/
theorem erc20_log_decode_exact :
    (∀ (ts : List H256) (d : Bytes),
      (Erc20Event.decode ts d = .ok none ↔ ts.length ≠ 3 ∨ d = [] ∨
        (ts.head? ≠ some Erc20Event.transferId ∧ ts.head? ≠ some Erc20Event.approvalId)) ∧
      (∀ e, Erc20Event.decode ts d = .ok (some e) ↔ ∃ a b, d.length = 32 ∧
        (ts = [Erc20Event.transferId, a, b] ∧
            e = .transfer a.lowAddress b.lowAddress (Word.toNat d) ∨
          ts = [Erc20Event.approvalId, a, b] ∧
            e = .approval a.lowAddress b.lowAddress (Word.toNat d))) ∧
      ((∃ err, Erc20Event.decode ts d = .error (.abi err)) ↔
        ∃ id a b, ts = [id, a, b] ∧ (id = Erc20Event.transferId ∨ id = Erc20Event.approvalId) ∧
          d ≠ [] ∧ d.length ≠ 32)) ∧
    ∀ e : Erc20Event, e.value < Nat.pow 2 256 →
      ∃ d, e.data = .ok d ∧ Erc20Event.decode e.topics d = .ok (some e) :=
  ⟨fun _ _ => ⟨Erc20Event.decode_eq_none_iff, fun _ => Erc20Event.decode_eq_some_iff,
      Erc20Event.decode_eq_error_iff⟩,
    Erc20Event.decode_topics_data⟩

end ContractAbi
