import ContractAbi.Contract.Basic
import ContractAbi.Proofs.Layout
/-!
The decoders as the machine runs them. There a slice that ends past its buffer or before it
starts, chunks of size zero and a sum or difference of machine words that wraps stop the run. The
checked decoders take each slice, chunking and such operation of the decoders, in their order,
through a step that stops there (`Stop`). On buffers of machine size no run stops: each checked
decoder returns what its decoder does.
-/

namespace ContractAbi

/-- How a checked run ends without a value: with the program's own error, or stopped. -/
inductive Stop (ε : Type) where
  | error (e : ε)
  /-- A slice that ends past its buffer or before it starts. -/
  | outOfBounds
  /-- A sum or difference of machine words that wraps. -/
  | overflow
  /-- Chunks of size zero. -/
  | zeroChunk

def Stop.map {ε ε' : Type} (f : ε → ε') : Stop ε → Stop ε'
  | .error e => .error (f e)
  | .outOfBounds => .outOfBounds
  | .overflow => .overflow
  | .zeroChunk => .zeroChunk

theorem MethodId.ofInput_eq_ok {data : Bytes} {id : MethodId} (h : MethodId.ofInput data = .ok id) :
    4 ≤ data.length := by
  unfold MethodId.ofInput at h
  split_ifs at h with h4
  exact h4

theorem MethodId.ofInput_eq_error {data : Bytes} {e : PrimitiveError}
    (h : MethodId.ofInput data = .error e) :
    data.length < 4 ∧ e = .invalidLength .methodId 4 data.length := by
  unfold MethodId.ofInput at h
  split_ifs at h with h4
  cases h
  exact ⟨by omega, rfl⟩

namespace Checked

section Steps

variable {ε α β : Type}

/-- A result of the program, its error ending the run. -/
def lift (x : Except ε α) : Except (Stop ε) α := x.mapError .error

def range (data : Bytes) (lo hi : Nat) : Except (Stop ε) Bytes :=
  if lo ≤ hi ∧ hi ≤ data.length then .ok (ParameterList.slice data (lo, hi)) else .error .outOfBounds

def add (a b : Nat) : Except (Stop ε) Nat :=
  if a + b ≤ machineMax then .ok (a + b) else .error .overflow

def sub (a b : Nat) : Except (Stop ε) Nat :=
  if b ≤ a then .ok (a - b) else .error .overflow

def chunksExact (data : Bytes) (size : Nat) : Except (Stop ε) (List Bytes) :=
  if size = 0 then .error .zeroChunk else .ok (Codec.chunks data size (data.length / size))

@[simp] theorem lift_ok (a : α) : lift (.ok a : Except ε α) = .ok a := rfl

@[simp] theorem lift_error (e : ε) : lift (.error e : Except ε α) = .error (.error e) := rfl

theorem range_of_le {data : Bytes} {lo hi : Nat} (hlo : lo ≤ hi) (hhi : hi ≤ data.length) :
    (range data lo hi : Except (Stop ε) Bytes) = .ok (ParameterList.slice data (lo, hi)) :=
  if_pos ⟨hlo, hhi⟩

theorem add_of_le {a b : Nat} (h : a + b ≤ machineMax) :
    (add a b : Except (Stop ε) Nat) = .ok (a + b) :=
  if_pos h

theorem sub_of_le {a b : Nat} (h : b ≤ a) : (sub a b : Except (Stop ε) Nat) = .ok (a - b) :=
  if_pos h

theorem chunksExact_of_pos {data : Bytes} {size : Nat} (h : 0 < size) :
    (chunksExact data size : Except (Stop ε) (List Bytes)) =
      .ok (Codec.chunks data size (data.length / size)) :=
  if_neg (by omega)

theorem lift_bind {x : Except ε α} {f : α → Except ε β} {g : α → Except (Stop ε) β}
    (h : ∀ a, x = .ok a → g a = lift (f a)) : lift x >>= g = lift (x >>= f) := by
  cases x with
  | error e => rfl
  | ok a => exact h a rfl

theorem mapM_lift {f : α → Except ε β} {g : α → Except (Stop ε) β} :
    ∀ {l : List α}, (∀ a ∈ l, g a = lift (f a)) → l.mapM g = lift (l.mapM f)
  | [], _ => rfl
  | a :: l, h => by
    rw [List.mapM_cons, List.mapM_cons, h a List.mem_cons_self]
    refine lift_bind fun b _ => ?_
    rw [mapM_lift fun a' ha' => h a' (List.mem_cons_of_mem a ha')]
    exact lift_bind fun bs _ => rfl

end Steps

def readLength (data : Bytes) : Except (Stop AbiError) Nat := do
  if data.length < wordSize then throw (.error (.truncatedBuffer wordSize data.length))
  let v := Word.toNat (← range data 0 wordSize)
  if v > machineMax then throw (.error (.lengthOverflow v))
  pure v

def decodePadded (data : Bytes) : Except (Stop AbiError) Bytes := do
  let len ← readLength data
  let padded ← lift (Codec.paddedLen len)
  let remaining ← sub data.length wordSize
  if remaining ≠ padded then throw (.error (.lengthMismatch padded remaining))
  range data wordSize (← add wordSize len)

def decodeScalar (t : StaticType) (w : Bytes) : Except (Stop AbiError) Value :=
  match t with
  | .address => return .address (ByteVec.lastOf 20 (← range w 12 wordSize))
  | .function => return .function (ByteVec.lastOf 24 (← range w 8 wordSize))
  | .fixedBytes l => return .fixedBytes (← range w 0 l)
  | t => lift (t.decodeScalar w)

def decodeStatic : StaticType → Bytes → Except (Stop AbiError) Value
  | .array elem len, data => do
    lift (Codec.expectLen data (elem.fixedSize * len))
    let items ← (← chunksExact data elem.fixedSize).mapM (decodeStatic elem)
    pure (.array items)
  | t, data => do
    lift (Codec.expectLen data wordSize)
    decodeScalar t data

def decodeElements (elem : StaticType) (payload : Bytes) (count : Nat) :
    Except (Stop AbiError) (List Value) :=
  if count = 0 then pure [] else do
    (← chunksExact payload elem.fixedSize).mapM (decodeStatic elem)

def decode : AbiType → Bytes → Except (Stop AbiError) Value
  | .static t, data => decodeStatic t data
  | .bytes, data => return .bytes (← decodePadded data)
  | .string, data => do
    let bs ← decodePadded data
    match Utf8.decode bs with
    | .ok s => pure (.string s)
    | .error e => throw (.error (.invalidUtf8 e))
  | .dynArray elem, data => do
    let count ← readLength data
    let payload ← lift (elem.payloadLen count)
    let remaining ← sub data.length wordSize
    if remaining ≠ payload then throw (.error (.lengthMismatch payload remaining))
    let items ← decodeElements elem (← range data wordSize data.length) count
    pure (.array items)

/-- The byte ranges of the arguments `ts`, whose head slots start at `pos`: the slots are laid
out first, then the offsets are read from the last dynamic argument back. -/
def spansFrom (data : Bytes) (headSize : Nat) :
    Nat → List AbiType → Nat → Except (Stop AbiError) (List (Nat × Nat) × Nat)
  | _, [], upper => pure ([], upper)
  | pos, t :: ts, upper => do
    let nextPos ← add pos t.headSize
    let (spans, next) ← spansFrom data headSize nextPos ts upper
    if t.isDynamic then
      let offset := Word.toNat (← range data pos (← add pos wordSize))
      if offset > machineMax ∨ offset < headSize ∨ offset ≥ next then
        throw (.error (.invalidOffset offset headSize next))
      pure ((offset, next) :: spans, offset)
    else pure ((pos, nextPos) :: spans, next)

def decodeList (L : ParameterList) (data : Bytes) : Except (Stop AbiError) (List Value) := do
  let head := L.headSize
  if data.length < head then throw (.error (.truncatedBuffer head data.length))
  let (spans, first) ← spansFrom data head 0 L.types data.length
  if first ≠ head then throw (.error (.encodingIncomplete first head))
  (L.types.zip spans).mapM fun (t, lo, hi) => do decode t (← range data lo hi)

def decodeCall (m : Method) (data : Bytes) : Except (Stop AbiError) (List Value) :=
  match MethodId.ofInput data with
  | .error _ => throw (.error (.truncatedBuffer 4 data.length))
  | .ok found =>
    if found ≠ m.id then throw (.error (.selectorMismatch m.id found))
    else do decodeList m.inputs (← range data 4 data.length)

def dispatch (c : Contract) (data : Bytes) : Except (Stop ContractError) (Method × List Value) := do
  let id ← lift (liftPrimitive (MethodId.ofInput data))
  match c.method? id with
  | none => throw (.error (.unknownSelector id))
  | some m => do
    let args ← (decodeCall m data).mapError (Stop.map .abi)
    pure (m, args)

theorem slice_zero (data : Bytes) (n : Nat) : ParameterList.slice data (0, n) = data.take n := by
  simp [ParameterList.slice]

theorem slice_add (data : Bytes) (lo n : Nat) :
    ParameterList.slice data (lo, lo + n) = (data.drop lo).take n := by
  simp [ParameterList.slice]

theorem slice_to_end (data : Bytes) (lo : Nat) :
    ParameterList.slice data (lo, data.length) = data.drop lo :=
  List.take_of_length_le (by simp)

theorem readLength_eq (data : Bytes) : readLength data = lift (Codec.readLength data) := by
  unfold readLength Codec.readLength
  by_cases hshort : data.length < wordSize
  · simp only [hshort, if_true]
    rfl
  · rw [range_of_le (Nat.zero_le _) (by omega)]
    simp only [hshort, if_false, Except.ok_bind, slice_zero]
    split_ifs <;> rfl

theorem decodePadded_eq {data : Bytes} (hmax : data.length ≤ machineMax) :
    decodePadded data = lift (Codec.decodePadded data) := by
  unfold decodePadded Codec.decodePadded
  rw [readLength_eq]
  refine lift_bind fun len hlen => ?_
  obtain ⟨h32, -⟩ := Codec.readLength_eq_ok.1 hlen
  refine lift_bind fun padded hpad => ?_
  obtain ⟨hp, -⟩ := Codec.paddedLen_eq_ok.1 hpad
  rw [sub_of_le (by simp; omega), Except.ok_bind]
  by_cases hne : data.length - wordSize = padded
  · simp only [wordSize_eq] at hne ⊢
    rw [add_of_le (by omega)]
    simp only [hne, ne_eq, not_true_eq_false, if_false, Except.ok_bind]
    rw [range_of_le (by omega) (by omega), slice_add]
    rfl
  · simp only [hne, ne_eq, not_false_eq_true, if_true]
    rfl

theorem lastOf_slice {w : Bytes} {lo n : Nat} (h : lo + n = w.length) :
    ByteVec.lastOf n (ParameterList.slice w (lo, w.length)) = ByteVec.lastOf n w := by
  have hs : ParameterList.slice w (lo, w.length) = w.drop lo :=
    List.take_of_length_le (by simp only [List.length_drop]; omega)
  rw [hs]
  simp only [ByteVec.lastOf, List.length_drop,
    show n - (w.length - lo) = 0 by omega, show w.length - lo - n = 0 by omega,
    show n - w.length = 0 by omega, show w.length - n = lo by omega, List.drop_zero]

theorem decodeScalar_eq {t : StaticType} (ht : t.WellFormed) {w : Bytes} (hw : w.length = 32) :
    decodeScalar t w = lift (t.decodeScalar w) := by
  cases t with
  | address =>
    rw [decodeScalar, show wordSize = w.length by simp [hw], range_of_le (by omega) le_rfl,
      Except.ok_bind, lastOf_slice (by omega : 12 + 20 = w.length)]
    rfl
  | function =>
    rw [decodeScalar, show wordSize = w.length by simp [hw], range_of_le (by omega) le_rfl,
      Except.ok_bind, lastOf_slice (by omega : 8 + 24 = w.length)]
    rfl
  | fixedBytes l =>
    simp only [StaticType.WellFormed] at ht
    rw [decodeScalar, range_of_le (Nat.zero_le _) (by omega), slice_zero]
    rfl
  | _ => rfl

theorem decodeStatic_scalar {t : StaticType} (ht : ∀ e k, t ≠ .array e k) (data : Bytes) :
    decodeStatic t data = (do lift (Codec.expectLen data wordSize); decodeScalar t data) := by
  cases t
  case array e k => exact absurd rfl (ht e k)
  all_goals rfl

theorem decodeStatic_eq {t : StaticType} (ht : t.WellFormed) (data : Bytes) :
    decodeStatic t data = lift (t.decode data) := by
  induction t generalizing data with
  | array e k ih =>
    obtain ⟨he, -, -⟩ := ht
    rw [decodeStatic, StaticType.decode]
    refine lift_bind fun _ hlen => ?_
    have hsize : data.length = e.fixedSize * k := Codec.expectLen_eq_ok.1 hlen
    rw [chunksExact_of_pos (StaticType.fixedSize_pos he), Except.ok_bind, hsize,
      Nat.mul_div_cancel_left _ (StaticType.fixedSize_pos he),
      mapM_lift fun c _ => ih he c]
    exact lift_bind fun _ _ => rfl
  | _ =>
    rw [decodeStatic_scalar (fun _ _ h => by cases h), StaticType.decode_scalar (fun _ _ h => by cases h)]
    refine lift_bind fun _ hlen => ?_
    exact decodeScalar_eq ht (Codec.expectLen_eq_ok.1 hlen)

theorem decodeElements_eq {e : StaticType} (he : e.WellFormed) {payload : Bytes} {count : Nat}
    (hlen : payload.length = count * e.fixedSize) :
    decodeElements e payload count = lift (e.decodeElements payload count) := by
  unfold decodeElements StaticType.decodeElements
  by_cases h0 : count = 0
  · subst h0
    rfl
  · rw [if_neg h0, chunksExact_of_pos (StaticType.fixedSize_pos he), Except.ok_bind, hlen,
      Nat.mul_div_cancel _ (StaticType.fixedSize_pos he)]
    exact mapM_lift fun c _ => decodeStatic_eq he c

theorem decode_eq {t : AbiType} (ht : t.WellFormed) {data : Bytes} (hmax : data.length ≤ machineMax) :
    decode t data = lift (t.decode data) := by
  cases t with
  | static s => exact decodeStatic_eq ht data
  | bytes =>
    rw [decode, AbiType.decode, decodePadded_eq hmax]
    cases Codec.decodePadded data <;> rfl
  | string =>
    rw [decode, AbiType.decode, decodePadded_eq hmax]
    refine lift_bind fun bs _ => ?_
    cases Utf8.decode bs <;> rfl
  | dynArray e =>
    rw [decode, AbiType.decode, readLength_eq]
    refine lift_bind fun count hcount => ?_
    obtain ⟨h32, -⟩ := Codec.readLength_eq_ok.1 hcount
    refine lift_bind fun payload hpay => ?_
    obtain ⟨hp, -⟩ := StaticType.payloadLen_eq_ok.1 hpay
    rw [sub_of_le (by simp; omega), Except.ok_bind]
    by_cases hne : data.length - wordSize = payload
    · simp only [hne, ne_eq, not_true_eq_false, if_false]
      rw [range_of_le (by simp; omega) le_rfl, Except.ok_bind, slice_to_end,
        decodeElements_eq ht (by simp only [List.length_drop]; omega)]
      exact lift_bind fun _ _ => rfl
    · simp only [hne, ne_eq, not_false_eq_true, if_true]
      rfl

theorem spansFrom_eq {data : Bytes} {H : Nat} (hmax : data.length ≤ machineMax) :
    ∀ {ts : List AbiType} {pos upper : Nat}, pos + (ts.map AbiType.headSize).sum ≤ data.length →
      spansFrom data H pos ts upper = lift (ParameterList.spansFrom data H pos ts upper)
  | [], _, _, _ => rfl
  | t :: ts, pos, upper, hpos => by
    simp only [List.map_cons, List.sum_cons] at hpos
    rw [spansFrom, ParameterList.spansFrom, add_of_le (by omega), Except.ok_bind,
      spansFrom_eq hmax (by omega)]
    refine lift_bind fun r _ => ?_
    obtain ⟨spans, next⟩ := r
    by_cases hd : t.isDynamic
    · have h32 := ParameterList.headSize_of_isDynamic hd
      simp only [hd, if_true]
      rw [add_of_le (by simp; omega), Except.ok_bind, range_of_le (by simp) (by simp; omega),
        Except.ok_bind, slice_add]
      split_ifs <;> rfl
    · simp only [hd, Bool.false_eq_true, if_false]
      rfl

theorem decodeList_eq {L : ParameterList} (hwf : ∀ t ∈ L.types, t.WellFormed) {data : Bytes}
    (hmax : data.length < machineMax) : decodeList L data = lift (L.decode data) := by
  unfold decodeList ParameterList.decode
  by_cases hshort : data.length < L.headSize
  · simp only [hshort, if_true]
    rfl
  · simp only [hshort, if_false]
    have hsum := ParameterList.headSize_eq_sum (Nat.le_of_not_lt hshort) hmax
    rw [spansFrom_eq hmax.le (by omega)]
    refine lift_bind fun r hs => ?_
    obtain ⟨spans, first⟩ := r
    by_cases hfirst : first = L.headSize
    · obtain ⟨-, -, -, -, hbounds⟩ := ParameterList.spansFrom_eq_ok hs (by omega) le_rfl
      simp only [hfirst, ne_eq, not_true_eq_false, if_false]
      refine mapM_lift fun x hmem => ?_
      obtain ⟨t, lo, hi⟩ := x
      obtain ⟨hlo, hhi⟩ := hbounds (lo, hi) (List.of_mem_zip hmem).2
      rw [range_of_le hlo hhi, Except.ok_bind]
      exact decode_eq (hwf t (List.of_mem_zip hmem).1)
        ((ParameterList.length_slice_le data (lo, hi)).trans hmax.le)
    · simp only [hfirst, ne_eq, not_false_eq_true, if_true]
      rfl

theorem decodeCall_eq {m : Method} (hwf : ∀ t ∈ m.inputs.types, t.WellFormed) {data : Bytes}
    (hmax : data.length < machineMax) : decodeCall m data = lift (m.decodeCall data) := by
  unfold decodeCall Method.decodeCall
  cases hid : MethodId.ofInput data with
  | error e => rfl
  | ok found =>
    have h4 := MethodId.ofInput_eq_ok hid
    by_cases hne : found = m.id
    · simp only [hne, ne_eq, not_true_eq_false, if_false]
      rw [range_of_le h4 le_rfl, Except.ok_bind, slice_to_end]
      exact decodeList_eq hwf (by simp only [List.length_drop]; omega)
    · simp only [hne, ne_eq, not_false_eq_true, if_true]
      rfl

theorem dispatch_eq {c : Contract} (hwf : ∀ m ∈ c.methods, ∀ t ∈ m.inputs.types, t.WellFormed)
    {data : Bytes} (hmax : data.length < machineMax) : dispatch c data = lift (c.dispatch data) := by
  unfold dispatch Contract.dispatch
  refine lift_bind fun id _ => ?_
  cases hm : c.method? id with
  | none => rfl
  | some m =>
    dsimp only
    rw [decodeCall_eq (hwf m (List.mem_of_find?_eq_some hm)) hmax]
    cases m.decodeCall data <;> rfl

end Checked

end ContractAbi
