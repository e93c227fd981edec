import ContractAbi.Contract.Erc20
import ContractAbi.Proofs.MethodTable
import ContractAbi.Proofs.RoundTrip
/-!
Dispatch of calldata. A contract reads the selector off the first four bytes of calldata, looks
the method up by it and decodes the rest as that method's arguments; the method's own selector
check then always passes, so dispatch is selector lookup followed by the argument decoder
(`dispatch_known`). Calldata that a built contract encodes for a name is dispatched back to the
method the name resolves to, with the same arguments (`dispatch_encodeCall`).
-/

namespace ContractAbi

namespace ParameterList

theorem eq_layout_of_encodeParts {H : Nat} : ∀ {ts : List AbiType} {vs : List Value}
    {ps : List Bytes} (head tail : Bytes) {b : Bytes}, Encodes ts vs ps →
    encodeParts H ts vs head tail = .ok b → b = head ++ heads H ts ps tail.length ++ tail ++ tails ts ps
  | [], [], [], head, tail, b, _, h => by
    simp only [encodeParts, Except.ok.injEq] at h
    simp [← h, heads, tails]
  | t :: ts, v :: vs, p :: ps, head, tail, b, ⟨hp, henc⟩, h => by
    cases t with
    | static s =>
      simp only [encodeParts, AbiType.encode] at hp h
      rw [hp, Except.ok_bind] at h
      rw [eq_layout_of_encodeParts (head ++ p) tail henc h]
      simp [heads, tails, AbiType.isDynamic]
    | _ =>
      simp only [encodeParts] at h
      split at h
      · exact absurd h Except.throw_ne_ok
      · rw [hp, Except.ok_bind] at h
        rw [eq_layout_of_encodeParts _ (tail ++ p) henc h]
        simp [heads, tails, AbiType.isDynamic]

theorem length_of_encode {L : ParameterList} (hwf : ∀ t ∈ L.types, t.WellFormed) {vs : List Value}
    {b : Bytes} (h : L.encode vs = .ok b) : b.length = L.encodedSize vs := by
  rw [encode] at h
  split_ifs at h with hlen
  obtain ⟨ps, henc⟩ := encodes_of_encodeParts (not_not.1 hlen) h
  rw [eq_layout_of_encodeParts [] [] henc h]
  simp only [List.nil_append, List.length_nil, List.append_nil, List.length_append]
  exact (length_layout hwf henc 0).1

end ParameterList

theorem MethodId.ofInput_of_take {d : Bytes} {id : MethodId} (h : id.bytes = d.take 4) :
    MethodId.ofInput d = .ok id := by
  have h4 : 4 ≤ d.length := by
    have := congrArg List.length h
    rw [id.length_eq, List.length_take] at this
    omega
  rw [MethodId.ofInput, dif_pos h4]
  exact congrArg Except.ok (ByteVec.bytes_inj.1 h.symm)

theorem Method.decodeCall_of_take {m : Method} {d : Bytes} (hid : m.id.bytes = d.take 4) :
    m.decodeCall d = m.inputs.decode (d.drop 4) := by
  rw [Method.decodeCall, MethodId.ofInput_of_take hid]
  exact if_neg (not_not.2 rfl)

namespace Contract

theorem method?_eq_some {c : Contract} {id : MethodId} {m : Method} (h : c.method? id = some m) :
    m ∈ c.methods ∧ m.id = id :=
  ⟨List.mem_of_find?_eq_some h, by simpa using List.find?_some h⟩

theorem dispatch_short (c : Contract) {d : Bytes} (h : d.length < 4) :
    c.dispatch d = .error (.primitive (.invalidLength .methodId 4 d.length)) := by
  rw [dispatch, MethodId.ofInput, dif_neg (by omega)]
  rfl

theorem dispatch_unknown (c : Contract) {d : Bytes} {id : MethodId} (hid : id.bytes = d.take 4)
    (h : c.method? id = none) : c.dispatch d = .error (.unknownSelector id) := by
  rw [dispatch, MethodId.ofInput_of_take hid]
  simp only [liftPrimitive, Except.ok_bind, h]
  rfl

theorem dispatch_known (c : Contract) {d : Bytes} {id : MethodId} {m : Method}
    (hid : id.bytes = d.take 4) (h : c.method? id = some m) :
    c.dispatch d = (liftAbi (m.inputs.decode (d.drop 4))).map (m, ·) := by
  have hmid : m.id.bytes = d.take 4 := by
    rw [(method?_eq_some h).2]
    exact hid
  rw [dispatch, MethodId.ofInput_of_take hid]
  simp only [liftPrimitive, Except.ok_bind, h, Method.decodeCall_of_take hmid]
  cases m.inputs.decode (d.drop 4) <;> rfl

/-- Calldata that a built contract encodes for a name dispatches back to the method the name
resolves to, with the arguments it encodes, when its argument types are well-formed and the
calldata is machine-sized. -/
theorem dispatch_encodeCall (a : Address) {ms : List Method}
    (hms : ∀ m ∈ ms, ∀ t ∈ m.inputs.types, t.WellFormed)
    {name : String} {args : List Value} {data : Bytes}
    (h : (ms.foldl withFunction (empty a)).encodeCall name args = .ok data)
    (hsize : data.length < machineMax) :
    ∃ m, (ms.foldl withFunction (empty a)).function? name = some m ∧
      (ms.foldl withFunction (empty a)).dispatch data = .ok (m, args) := by
  obtain ⟨m, hreq, henc⟩ := Except.bind_eq_ok.1 h
  have hfun : (ms.foldl withFunction (empty a)).function? name = some m := by
    unfold require at hreq
    split at hreq
    · cases hreq
      assumption
    · cases hreq
  have hmem : m ∈ (ms.foldl withFunction (empty a)).methods := List.mem_of_find?_eq_some hfun
  -- the method was added, so its argument types are well-formed
  have hwf : ∀ t ∈ m.inputs.types, t.WellFormed :=
    hms m (List.mem_filter.1 (List.mem_of_getLast? ((mem_build a ms m).1 hmem))).1
  obtain ⟨enc, hargs, hdata⟩ : ∃ enc, m.inputs.encode args = .ok enc ∧ data = m.id.bytes ++ enc := by
    cases hcall : m.encodeCall args with
    | error e => rw [hcall] at henc; cases henc
    | ok bs =>
      rw [hcall] at henc
      cases henc
      obtain ⟨enc, hargs, hpure⟩ := Except.bind_eq_ok.1 hcall
      exact ⟨enc, hargs, (Except.pure_eq_ok.1 hpure).symm⟩
  have hid : m.id.bytes = data.take 4 := by
    rw [hdata, List.take_left' m.id.length_eq]
  have hlookup : (ms.foldl withFunction (empty a)).method? m.id = some m :=
    (find?_key_eq_some (ids_distinct_build a ms)).2 ⟨hmem, rfl⟩
  have hencsize : m.inputs.encodedSize args < machineMax := by
    rw [← ParameterList.length_of_encode hwf hargs]
    rw [hdata, List.length_append] at hsize
    omega
  have hdec := (ParameterList.decode_of_encode hwf hencsize hargs).1
  refine ⟨m, hfun, ?_⟩
  rw [dispatch_known _ hid hlookup, hdata, List.drop_left' m.id.length_eq, hdec]
  rfl

end Contract

/-- Dispatch inverts call encoding, and each of its errors has an exact condition. -/
theorem dispatch_inverts_encodeCall (a : Address) (ms : List Method)
    (hms : ∀ m ∈ ms, ∀ t ∈ m.inputs.types, t.WellFormed) :
    let c := ms.foldl Contract.withFunction (Contract.empty a)
    (∀ name args data, c.encodeCall name args = .ok data → data.length < machineMax →
      ∃ m, c.function? name = some m ∧ c.dispatch data = .ok (m, args)) ∧
    ∀ d : Bytes,
      (c.dispatch d = .error (.primitive (.invalidLength .methodId 4 d.length)) ↔ d.length < 4) ∧
      ∀ id : MethodId, id.bytes = d.take 4 →
        (c.dispatch d = .error (.unknownSelector id) ↔ ∀ m ∈ c.methods, m.id ≠ id) ∧
        ∀ m, c.method? id = some m →
          (∀ args, c.dispatch d = .ok (m, args) ↔ m.inputs.decode (d.drop 4) = .ok args) ∧
          ∀ e, c.dispatch d = .error (.abi e) ↔ m.inputs.decode (d.drop 4) = .error e := by
  intro c
  refine ⟨fun name args data h hsize => Contract.dispatch_encodeCall a hms h hsize, fun d => ⟨?_, ?_⟩⟩
  · -- a selector is read whenever there are four bytes, and then no primitive error follows
    constructor
    · intro h
      by_contra hlong
      have hid : (⟨d.take 4, by simp; omega⟩ : MethodId).bytes = d.take 4 := rfl
      cases hm : c.method? ⟨d.take 4, by simp; omega⟩ with
      | none => rw [c.dispatch_unknown hid hm] at h; cases h
      | some m =>
        rw [c.dispatch_known hid hm] at h
        cases hdec : m.inputs.decode (d.drop 4) <;> rw [hdec] at h <;> cases h
    · exact c.dispatch_short
  · intro id hid
    refine ⟨⟨fun h m hm hmid => ?_, fun hnone => c.dispatch_unknown hid ?_⟩, fun m hm => ?_⟩
    · -- a method with the selector would have been found and decoded
      obtain ⟨m', hm'⟩ : ∃ m', c.method? id = some m' :=
        Option.isSome_iff_exists.1 (List.find?_isSome.2 ⟨m, hm, by simpa using hmid⟩)
      rw [c.dispatch_known hid hm'] at h
      cases hdec : m'.inputs.decode (d.drop 4) <;> rw [hdec] at h <;> cases h
    · exact List.find?_eq_none.2 fun m hm => by simpa using hnone m hm
    · rw [c.dispatch_known hid hm]
      refine ⟨fun args => ?_, fun e => ?_⟩ <;>
        cases m.inputs.decode (d.drop 4) <;> simp [liftAbi, Except.map]

theorem dispatch_inverts_encodeCall_sample :
    (∀ m ∈ [Erc20Method.balanceOf.method, Erc20Method.name.method], ∀ t ∈ m.inputs.types,
        t.WellFormed) ∧
      ∀ name args data,
        ([Erc20Method.balanceOf.method, Erc20Method.name.method].foldl Contract.withFunction
            (Contract.empty (ByteVec.zero 20))).encodeCall name args = .ok data →
        data.length < machineMax →
        ∃ m, ([Erc20Method.balanceOf.method, Erc20Method.name.method].foldl Contract.withFunction
            (Contract.empty (ByteVec.zero 20))).function? name = some m ∧
          ([Erc20Method.balanceOf.method, Erc20Method.name.method].foldl Contract.withFunction
            (Contract.empty (ByteVec.zero 20))).dispatch data = .ok (m, args) := by
  have hms : ∀ m ∈ [Erc20Method.balanceOf.method, Erc20Method.name.method], ∀ t ∈ m.inputs.types,
      t.WellFormed := by
    intro m hm t ht
    simp only [List.mem_cons, List.not_mem_nil, or_false] at hm
    rcases hm with rfl | rfl
    · simp only [Erc20Method.method, Erc20Method.inputs, List.mem_singleton] at ht
      subst ht
      trivial
    · simp [Erc20Method.method, Erc20Method.inputs] at ht
  exact ⟨hms, (dispatch_inverts_encodeCall (ByteVec.zero 20) _ hms).1⟩

end ContractAbi
