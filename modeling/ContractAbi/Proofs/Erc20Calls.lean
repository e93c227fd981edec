import ContractAbi.Proofs.Dispatch
import ContractAbi.Proofs.Framing
import Mathlib.Data.List.Nodup
/-!
Typed ERC-20 calls. The nine selectors, computed once by the kernel (`map_id_all`), are the values
the interface publishes and pairwise distinct, so the scan `Erc20Method.ofId?` and the method table
of `Contract.erc20` route every selector alike (`erc20_method?`). The arguments a method decodes
have its types (`admits_of_decode`), so the typed accessors of the decoder cannot fail once they
decode: the decoder agrees with dispatch on every calldata (`decode_dispatch_cases`) and inverts
the typed encoder (`decode_encode`).
-/

namespace ContractAbi

namespace ParameterList

theorem length_spansFrom {data : Bytes} {H : Nat} :
    ∀ {ts : List AbiType} {pos upper : Nat} {spans : List (Nat × Nat)} {first : Nat},
      spansFrom data H pos ts upper = .ok (spans, first) → spans.length = ts.length
  | [], _, _, _, _, h => by
    simp only [spansFrom, Except.ok.injEq, Prod.mk.injEq] at h
    rw [← h.1]
    rfl
  | t :: ts, pos, upper, spans, first, h => by
    obtain ⟨spans', next, hrec, hstep⟩ := spansFrom_cons_eq_ok h
    have hlen := length_spansFrom hrec
    rcases hstep with ⟨-, -, -, -, rfl, -⟩ | ⟨-, rfl, -⟩ <;> simp [hlen]

theorem admits_of_decodes : ∀ {ts : List AbiType} {ps : List Bytes} {vs : List Value},
    (∀ t ∈ ts, t.WellFormed) → Decodes ts ps vs → List.Forall₂ (fun t v => t.admits v = true) ts vs
  | [], [], [], _, _ => .nil
  | t :: ts, _ :: _, _ :: _, hwf, ⟨hdec, hrest⟩ => by
    have ht := hwf t List.mem_cons_self
    -- a value that decodes re-encodes, and only values of the type encode
    obtain ⟨henc, -⟩ := AbiType.encode_of_decode ht hdec
    exact .cons (AbiType.encode_eq_ok ht henc).1
      (admits_of_decodes (fun t' ht' => hwf t' (List.mem_cons_of_mem t ht')) hrest)

theorem admits_of_decode {L : ParameterList} (hwf : ∀ t ∈ L.types, t.WellFormed) {b : Bytes}
    {vs : List Value} (h : L.decode b = .ok vs) :
    List.Forall₂ (fun t v => t.admits v = true) L.types vs := by
  obtain ⟨spans, -, hs, hdec⟩ := decode_eq_ok h
  exact admits_of_decodes hwf (decodes_of_mapM (length_spansFrom hs) hdec)

end ParameterList

namespace Erc20Method

/-- The selectors of the interface, as published. -/
def knownId : Erc20Method → MethodId
  | .totalSupply => ⟨[0x18, 0x16, 0x0d, 0xdd], rfl⟩
  | .balanceOf => ⟨[0x70, 0xa0, 0x82, 0x31], rfl⟩
  | .transfer => ⟨[0xa9, 0x05, 0x9c, 0xbb], rfl⟩
  | .transferFrom => ⟨[0x23, 0xb8, 0x72, 0xdd], rfl⟩
  | .approve => ⟨[0x09, 0x5e, 0xa7, 0xb3], rfl⟩
  | .allowance => ⟨[0xdd, 0x62, 0xed, 0x3e], rfl⟩
  | .name => ⟨[0x06, 0xfd, 0xde, 0x03], rfl⟩
  | .symbol => ⟨[0x95, 0xd8, 0x9b, 0x41], rfl⟩
  | .decimals => ⟨[0x31, 0x3c, 0xe5, 0x67], rfl⟩

theorem mem_all (m : Erc20Method) : m ∈ all := by
  cases m <;> simp [all]

/-- The selectors of the interface, computed: the kernel runs Keccak-256 over the nine signatures
in this one check. -/
theorem map_id_all : all.map id = all.map knownId := by
  decide +kernel

theorem id_eq_knownId (m : Erc20Method) : m.id = m.knownId :=
  List.map_inj_left.1 map_id_all m (mem_all m)

theorem id_injective : Function.Injective Erc20Method.id := by
  intro m n h
  have hnodup : (all.map knownId).Nodup := by decide
  rw [id_eq_knownId, id_eq_knownId] at h
  exact List.inj_on_of_nodup_map hnodup (mem_all m) (mem_all n) h

theorem pairwise_id_ne : all.Pairwise fun m n => m.id ≠ n.id := by
  have hnodup : all.Nodup := by decide
  exact hnodup.imp fun hne heq => hne (id_injective heq)

theorem ids_distinct : (all.map method).Pairwise fun m n => m.id ≠ n.id :=
  List.pairwise_map.2 pairwise_id_ne

theorem ofId?_eq_some {id : MethodId} {m : Erc20Method} : ofId? id = some m ↔ m.id = id := by
  rw [ofId?, find?_key_eq_some pairwise_id_ne]
  exact and_iff_right (mem_all m)

@[simp] theorem ofId?_id (m : Erc20Method) : ofId? m.id = some m :=
  ofId?_eq_some.2 rfl

theorem ofId?_eq_none {id : MethodId} : ofId? id = none ↔ ∀ m : Erc20Method, m.id ≠ id := by
  rw [ofId?, List.find?_eq_none]
  simp [mem_all]

theorem wellFormed_inputs (m : Erc20Method) : ∀ t ∈ m.method.inputs.types, t.WellFormed := by
  cases m <;> simp [method, inputs, AbiType.WellFormed, StaticType.WellFormed]

end Erc20Method

theorem Contract.erc20_method? (a : Address) (id : MethodId) :
    (Contract.erc20 a).method? id = (Erc20Method.ofId? id).map Erc20Method.method := by
  rw [Contract.erc20, ← List.foldl_map, method?_build_of_distinct a Erc20Method.ids_distinct,
    List.find?_map]
  rfl

theorem Contract.erc20_dispatch_unknown (a : Address) {d : Bytes} {id : MethodId}
    (hid : id.bytes = d.take 4) (h : ∀ m : Erc20Method, m.id ≠ id) :
    (Contract.erc20 a).dispatch d = .error (.unknownSelector id) := by
  refine (Contract.erc20 a).dispatch_unknown hid ?_
  rw [Contract.erc20_method?, Erc20Method.ofId?_eq_none.2 h]
  rfl

theorem Contract.erc20_dispatch_known (a : Address) {d : Bytes} {m : Erc20Method}
    (hid : m.id.bytes = d.take 4) :
    (Contract.erc20 a).dispatch d = (liftAbi (m.method.inputs.decode (d.drop 4))).map (m.method, ·) := by
  refine (Contract.erc20 a).dispatch_known hid ?_
  rw [Contract.erc20_method?, Erc20Method.ofId?_id]
  rfl

namespace Erc20Call

theorem exists_of_admits (m : Erc20Method) {args : List Value}
    (h : List.Forall₂ (fun t v => t.admits v = true) m.method.inputs.types args) :
    ∃ c : Erc20Call, c.method = m ∧ c.args = args := by
  have haddr : ∀ {v}, (AbiType.static .address).admits v = true → ∃ x, v = .address x := by
    intro v hv
    cases v <;> simp_all [AbiType.admits, StaticType.admits]
  have huint : ∀ {v}, (AbiType.static (.uint 256)).admits v = true → ∃ n, v = .uint n := by
    intro v hv
    cases v <;> simp_all [AbiType.admits, StaticType.admits]
  -- one case per method, peeling the argument list off its types
  cases m <;> simp only [Erc20Method.method, Erc20Method.inputs] at h
  case totalSupply => cases h; exact ⟨.totalSupply, rfl, rfl⟩
  case name => cases h; exact ⟨.name, rfl, rfl⟩
  case symbol => cases h; exact ⟨.symbol, rfl, rfl⟩
  case decimals => cases h; exact ⟨.decimals, rfl, rfl⟩
  case balanceOf =>
    rcases h with _ | ⟨ho, _ | _⟩
    obtain ⟨o, rfl⟩ := haddr ho
    exact ⟨.balanceOf o, rfl, rfl⟩
  case transfer =>
    rcases h with _ | ⟨hr, _ | ⟨hv, _ | _⟩⟩
    obtain ⟨r, rfl⟩ := haddr hr
    obtain ⟨v, rfl⟩ := huint hv
    exact ⟨.transfer r v, rfl, rfl⟩
  case transferFrom =>
    rcases h with _ | ⟨hs, _ | ⟨hr, _ | ⟨hv, _ | _⟩⟩⟩
    obtain ⟨s, rfl⟩ := haddr hs
    obtain ⟨r, rfl⟩ := haddr hr
    obtain ⟨v, rfl⟩ := huint hv
    exact ⟨.transferFrom s r v, rfl, rfl⟩
  case approve =>
    rcases h with _ | ⟨hs, _ | ⟨hv, _ | _⟩⟩
    obtain ⟨s, rfl⟩ := haddr hs
    obtain ⟨v, rfl⟩ := huint hv
    exact ⟨.approve s v, rfl, rfl⟩
  case allowance =>
    rcases h with _ | ⟨ho, _ | ⟨hs, _ | _⟩⟩
    obtain ⟨o, rfl⟩ := haddr ho
    obtain ⟨s, rfl⟩ := haddr hs
    exact ⟨.allowance o s, rfl, rfl⟩

theorem admits_args (c : Erc20Call) (hc : ∀ n, Value.uint n ∈ c.args → n ≤ uintMax 256) :
    c.method.method.inputs.admits c.args = true := by
  cases c <;> simp_all [args, method, Erc20Method.method, Erc20Method.inputs,
    ParameterList.admits, AbiType.admits, StaticType.admits]

theorem encodedSize_args (c : Erc20Call) :
    c.method.method.inputs.encodedSize c.args = 32 * c.args.length := by
  cases c <;> rfl

theorem length_args_le (c : Erc20Call) : c.args.length ≤ 3 := by
  cases c <;> simp [args]

theorem decode_short {d : Bytes} (h : d.length < 4) :
    decode d = .error (.primitive (.invalidLength .methodId 4 d.length)) := by
  rw [decode, MethodId.ofInput, dif_neg (by omega)]
  rfl

theorem decode_unknown {d : Bytes} {id : MethodId} (hid : id.bytes = d.take 4)
    (h : ∀ m : Erc20Method, m.id ≠ id) : decode d = .error (.unknownSelector id) := by
  rw [decode, MethodId.ofInput_of_take hid, liftPrimitive, Except.ok_bind,
    Erc20Method.ofId?_eq_none.2 h]
  rfl

theorem decode_known_error {d : Bytes} {m : Erc20Method} {e : AbiError}
    (hid : m.id.bytes = d.take 4) (h : m.method.inputs.decode (d.drop 4) = .error e) :
    decode d = .error (.abi e) := by
  -- rewriting step by step: a `simp` here leaves the kernel a definitional check that runs the
  -- selector scan, hashing the signatures
  rw [decode, MethodId.ofInput_of_take hid, liftPrimitive, Except.ok_bind, Erc20Method.ofId?_id]
  dsimp only
  rw [Method.decodeCall_of_take (m := m.method) hid, h]
  rfl

theorem decode_of_args {d : Bytes} (c : Erc20Call) (hid : c.method.id.bytes = d.take 4)
    (h : c.method.method.inputs.decode (d.drop 4) = .ok c.args) : decode d = .ok c := by
  rw [decode, MethodId.ofInput_of_take hid, liftPrimitive, Except.ok_bind, Erc20Method.ofId?_id]
  dsimp only
  rw [Method.decodeCall_of_take (m := c.method.method) hid, h]
  cases c <;> rfl

end Erc20Call

/-- On any calldata the typed decoder and dispatch on the ERC-20 contract fail with the same error,
which is the length error, an unknown selector or the arguments' decoding error, or both succeed
with the same method and arguments. -/
theorem Erc20Call.decode_dispatch_cases (a : Address) (d : Bytes) :
    (∃ e, Erc20Call.decode d = .error e ∧ (Contract.erc20 a).dispatch d = .error e ∧
      ((d.length < 4 ∧ e = .primitive (.invalidLength .methodId 4 d.length)) ∨
        (∃ id : MethodId, id.bytes = d.take 4 ∧ (∀ m : Erc20Method, m.id ≠ id) ∧
          e = .unknownSelector id) ∨
        ∃ (m : Erc20Method) (e' : AbiError), m.id.bytes = d.take 4 ∧
          m.method.inputs.decode (d.drop 4) = .error e' ∧ e = .abi e')) ∨
    ∃ c, Erc20Call.decode d = .ok c ∧
      (Contract.erc20 a).dispatch d = .ok (c.method.method, c.args) := by
  by_cases hshort : d.length < 4
  · exact .inl ⟨_, Erc20Call.decode_short hshort, (Contract.erc20 a).dispatch_short hshort,
      .inl ⟨hshort, rfl⟩⟩
  obtain ⟨id, hid⟩ : ∃ id : MethodId, id.bytes = d.take 4 :=
    ⟨⟨d.take 4, List.length_take.trans (Nat.min_eq_left (by omega))⟩, rfl⟩
  -- both routes look the selector up among the nine methods
  cases hm : Erc20Method.ofId? id with
  | none =>
    have hnone := Erc20Method.ofId?_eq_none.1 hm
    exact .inl ⟨_, Erc20Call.decode_unknown hid hnone, Contract.erc20_dispatch_unknown a hid hnone,
      .inr (.inl ⟨id, hid, hnone, rfl⟩)⟩
  | some m =>
    obtain rfl := Erc20Method.ofId?_eq_some.1 hm
    have hdisp := Contract.erc20_dispatch_known a hid
    cases hdec : m.method.inputs.decode (d.drop 4) with
    | error e =>
      rw [hdec] at hdisp
      exact .inl ⟨_, Erc20Call.decode_known_error hid hdec, hdisp,
        .inr (.inr ⟨m, e, hid, hdec, rfl⟩)⟩
    | ok args =>
      -- decoded arguments have the method's types, so they are those of a typed call
      obtain ⟨c, rfl, rfl⟩ := Erc20Call.exists_of_admits m
        (ParameterList.admits_of_decode (Erc20Method.wellFormed_inputs m) hdec)
      rw [hdec] at hdisp
      exact .inr ⟨c, Erc20Call.decode_of_args c hid hdec, hdisp⟩

theorem Erc20Call.decode_encode (c : Erc20Call) (hc : ∀ n, Value.uint n ∈ c.args → n ≤ uintMax 256) :
    ∃ data, c.encode = .ok data ∧ Erc20Call.decode data = .ok c ∧
      data.length = 4 + 32 * c.args.length := by
  have hwf := Erc20Method.wellFormed_inputs c.method
  have hsize := Erc20Call.encodedSize_args c
  have hsmall : c.method.method.inputs.encodedSize c.args < machineMax := by
    have := Erc20Call.length_args_le c
    rw [hsize, machineMax_eq]
    omega
  obtain ⟨enc, henc⟩ := (ParameterList.encode_ok_iff_admits hwf hsmall).2 (c.admits_args hc)
  have hid : c.method.id.bytes = (c.method.id.bytes ++ enc).take 4 := by
    rw [List.take_left' c.method.id.length_eq]
  have hargs : c.method.method.inputs.decode ((c.method.id.bytes ++ enc).drop 4) = .ok c.args := by
    rw [List.drop_left' c.method.id.length_eq]
    exact (ParameterList.decode_of_encode hwf hsmall henc).1
  refine ⟨c.method.id.bytes ++ enc, ?_, Erc20Call.decode_of_args c hid hargs, ?_⟩
  · rw [Erc20Call.encode, Method.encodeCall, henc]
    rfl
  · rw [List.length_append, c.method.id.length_eq, ParameterList.length_of_encode hwf henc, hsize]

/-- The typed ERC-20 decoder agrees with generic dispatch, and inverts call encoding. -/
theorem erc20_decode_agrees_dispatch (a : Address) :
    (∀ d : Bytes,
      (∃ e, Erc20Call.decode d = .error e ∧ (Contract.erc20 a).dispatch d = .error e ∧
        ((d.length < 4 ∧ e = .primitive (.invalidLength .methodId 4 d.length)) ∨
          (∃ id : MethodId, id.bytes = d.take 4 ∧ (∀ m : Erc20Method, m.id ≠ id) ∧
            e = .unknownSelector id) ∨
          ∃ (m : Erc20Method) (e' : AbiError), m.id.bytes = d.take 4 ∧
            m.method.inputs.decode (d.drop 4) = .error e' ∧ e = .abi e')) ∨
      ∃ c, Erc20Call.decode d = .ok c ∧
        (Contract.erc20 a).dispatch d = .ok (c.method.method, c.args)) ∧
    ∀ c : Erc20Call, (∀ n, Value.uint n ∈ c.args → n ≤ uintMax 256) →
      ∃ data, c.encode = .ok data ∧ Erc20Call.decode data = .ok c ∧
        data.length = 4 + 32 * c.args.length :=
  ⟨Erc20Call.decode_dispatch_cases a, Erc20Call.decode_encode⟩

end ContractAbi
