import ContractAbi.Abi.Params
import ContractAbi.Proofs.WellFormed
/-!
Which values a type takes, and how long their encodings are. A value has a type when it is of the
type's variant and within its width, a fixed-point number carries exactly the type's fractional
bits, a `bytesK` value has `K` bytes and a `T[K]` value `K` elements of type `T`. Encoding
succeeds on exactly these values (`StaticType.encode_ok_iff`, `AbiType.encode_ok_iff`), and an
encoding is as long as `encodedSize` says: a static type's fixed size, a payload's length word and
padded data, or a count word and the elements.
-/

namespace ContractAbi

namespace StaticType

def admits : StaticType → Value → Bool
  | .uint b, .uint n => decide (n ≤ uintMax b)
  | .int b, .int x => decide (intMin b ≤ x ∧ x ≤ intMax b)
  | .bool, .bool _ | .address, .address _ | .function, .function _ => true
  | .fixedBytes l, .fixedBytes bs => bs.length == l
  | .fixed m n, .fixed x => decide (x.fracBits = n ∧ intMin (m + n) ≤ x.raw ∧ x.raw ≤ intMax (m + n))
  | .ufixed m n, .fixed x => decide (x.fracBits = n ∧ 0 ≤ x.raw ∧ x.raw ≤ uintMax (m + n))
  | .array e k, .array items => items.length == k && items.all e.admits
  | _, _ => false

example : (StaticType.array (.uint 8) 2).admits (.array [.uint 3, .uint 255]) = true := by decide
example : (StaticType.array (.uint 8) 2).admits (.array [.uint 3, .uint 256]) = false := by decide

theorem admits_array {e : StaticType} {k : Nat} {items : List Value} :
    (array e k).admits (.array items) = true ↔
      items.length = k ∧ ∀ v ∈ items, e.admits v = true := by
  simp [admits]

theorem encodeScalar_eq_ok {t : StaticType} {v : Value} {w : Bytes} (ht : t.WellFormed)
    (h : t.encodeScalar v = .ok w) : t.admits v = true ∧ w.length = 32 := by
  -- `cases h` on the words below would unfold them byte by byte
  cases t <;> cases v <;> simp only [encodeScalar, reduceCtorEq] at h
  case uint.uint b n =>
    split_ifs at h with hn
    obtain rfl := Except.ok.inj h
    exact ⟨by simp only [admits, decide_eq_true_eq]; omega, Word.length_ofNat n⟩
  case int.int b x =>
    split_ifs at h with hx
    obtain rfl := Except.ok.inj h
    exact ⟨by simp only [admits, decide_eq_true_eq]; omega, Word.length_ofNat _⟩
  case bool.bool b =>
    obtain rfl := Except.ok.inj h
    exact ⟨rfl, Word.length_ofNat _⟩
  case address.address a =>
    obtain rfl := Except.ok.inj h
    simp [admits, a.length_eq]
  case function.function f =>
    obtain rfl := Except.ok.inj h
    simp [admits, f.length_eq]
  case fixedBytes.fixedBytes l bs =>
    split_ifs at h with hl
    obtain rfl := Except.ok.inj h
    simp only [WellFormed] at ht
    simp only [admits, beq_iff_eq, List.length_append, List.length_replicate]
    omega
  case fixed.fixed m n x =>
    split_ifs at h with hn hx
    obtain rfl := Except.ok.inj h
    exact ⟨by simp only [admits, decide_eq_true_eq]; omega, Word.length_ofNat _⟩
  case ufixed.fixed m n x =>
    split_ifs at h with hn hx
    obtain rfl := Except.ok.inj h
    exact ⟨by simp only [admits, decide_eq_true_eq]; omega, Word.length_ofNat _⟩

theorem encodeScalar_ok_of_admits {t : StaticType} {v : Value} (ht : ∀ e k, t ≠ array e k)
    (h : t.admits v = true) : ∃ w, t.encodeScalar v = .ok w := by
  cases t <;> cases v <;> simp only [admits, Bool.false_eq_true] at h
  case array e k items => exact absurd rfl (ht e k)
  case bool.bool | address.address | function.function => exact ⟨_, rfl⟩
  all_goals
    simp only [decide_eq_true_eq, beq_iff_eq] at h
    simp only [encodeScalar]
    split_ifs <;> first | exact ⟨_, rfl⟩ | omega

theorem forall₂_encode {e : StaticType}
    (he : ∀ {v w}, e.encode v = .ok w → e.admits v = true ∧ w.length = e.fixedSize)
    {items : List Value} {ps : List Bytes} (h : List.Forall₂ (fun v p => e.encode v = .ok p) items ps) :
    items.all e.admits = true ∧ ∀ p ∈ ps, p.length = e.fixedSize := by
  induction h with
  | nil => simp
  | cons hvp _ ih =>
    obtain ⟨hv, hp⟩ := he hvp
    simp only [List.all_cons, hv, ih.1, Bool.and_self, List.mem_cons, forall_eq_or_imp, hp,
      true_and]
    exact ih.2

theorem encode_eq_ok {t : StaticType} (ht : t.WellFormed) {v : Value} {w : Bytes}
    (h : t.encode v = .ok w) : t.admits v = true ∧ w.length = t.fixedSize := by
  induction t generalizing v w with
  | array e k ih =>
    obtain ⟨he, -, -⟩ := ht
    cases v
    case array items =>
      simp only [encode] at h
      split_ifs at h with hk
      obtain ⟨ps, hps, rfl⟩ := Except.map_eq_ok.1 h
      have hk' : items.length = k := by omega
      have hall := Except.mapM_eq_ok.1 hps
      obtain ⟨hadm, hlen⟩ := forall₂_encode (ih he) hall
      refine ⟨admits_array.2 ⟨hk', List.all_eq_true.1 hadm⟩, ?_⟩
      rw [Codec.length_flatten_of_length_eq hlen, ← hall.length_eq, hk', fixedSize, Nat.mul_comm]
    all_goals simp [encode] at h
  | _ => exact encodeScalar_eq_ok ht h

theorem encode_ok_of_admits {t : StaticType} {v : Value} (h : t.admits v = true) :
    ∃ w, t.encode v = .ok w := by
  induction t generalizing v with
  | array e k ih =>
    cases v
    case array items =>
      obtain ⟨hk, hall⟩ := admits_array.1 h
      obtain ⟨ps, hps⟩ := Except.mapM_ok_of_forall fun v hv => ih (hall v hv)
      simp only [encode, hk, ne_eq, not_true_eq_false, if_false, hps]
      exact ⟨_, rfl⟩
    all_goals simp [admits] at h
  | _ => exact encodeScalar_ok_of_admits (fun _ _ => nofun) h

theorem encode_ok_iff {t : StaticType} (ht : t.WellFormed) {v : Value} :
    (∃ w, t.encode v = .ok w) ↔ t.admits v = true :=
  ⟨fun ⟨_, h⟩ => (encode_eq_ok ht h).1, encode_ok_of_admits⟩

end StaticType

namespace AbiType

/-- Whether a value has the type: a static type's values, any byte string for `bytes`, any
string for `string`, and any number of values of `T` for `T[]`. -/
def admits : AbiType → Value → Bool
  | .static t, v => t.admits v
  | .bytes, .bytes _ | .string, .string _ => true
  | .dynArray e, .array items => items.all e.admits
  | _, _ => false

def encodedSize : AbiType → Value → Nat
  | .static t, _ => t.fixedSize
  | .bytes, .bytes bs => 32 + (bs.length + 31) / 32 * 32
  | .string, .string s => 32 + ((Utf8.encode s).length + 31) / 32 * 32
  | .dynArray e, .array items => 32 + items.length * e.fixedSize
  | _, _ => 0

theorem encode_eq_ok {t : AbiType} (ht : t.WellFormed) {v : Value} {w : Bytes}
    (h : t.encode v = .ok w) : t.admits v = true ∧ w.length = t.encodedSize v := by
  cases t with
  | static s => exact StaticType.encode_eq_ok ht h
  | bytes =>
    cases v <;> simp only [encode, reduceCtorEq] at h
    obtain rfl := Except.ok.inj h
    exact ⟨rfl, Codec.length_encodePadded _⟩
  | string =>
    cases v <;> simp only [encode, reduceCtorEq] at h
    obtain rfl := Except.ok.inj h
    exact ⟨rfl, Codec.length_encodePadded _⟩
  | dynArray e =>
    cases v <;> simp only [encode, reduceCtorEq] at h
    case array items =>
      obtain ⟨ps, hps, rfl⟩ := Except.map_eq_ok.1 h
      have hall := Except.mapM_eq_ok.1 hps
      obtain ⟨hadm, hlen⟩ := StaticType.forall₂_encode (StaticType.encode_eq_ok ht) hall
      refine ⟨hadm, ?_⟩
      rw [List.length_append, Word.length_ofNat, Codec.length_flatten_of_length_eq hlen,
        ← hall.length_eq]
      rfl

theorem encode_ok_of_admits {t : AbiType} {v : Value} (h : t.admits v = true) :
    ∃ w, t.encode v = .ok w := by
  cases t with
  | static s => exact StaticType.encode_ok_of_admits h
  | dynArray e =>
    cases v <;> simp only [admits, Bool.false_eq_true] at h
    case array items =>
      obtain ⟨ps, hps⟩ := Except.mapM_ok_of_forall fun v hv =>
        StaticType.encode_ok_of_admits (List.all_eq_true.1 h v hv)
      simp only [encode, hps]
      exact ⟨_, rfl⟩
  | bytes | string => cases v <;> first | exact ⟨_, rfl⟩ | simp [admits] at h

theorem encode_ok_iff {t : AbiType} (ht : t.WellFormed) {v : Value} :
    (∃ w, t.encode v = .ok w) ↔ t.admits v = true :=
  ⟨fun ⟨_, h⟩ => (encode_eq_ok ht h).1, encode_ok_of_admits⟩

theorem encodedSize_facts {t : AbiType} (ht : t.WellFormed) (v : Value) :
    t.encodedSize v % 32 = 0 ∧ (t.isDynamic → t.admits v = true → 32 ≤ t.encodedSize v) := by
  cases t with
  | static s => exact ⟨(StaticType.fixedSize_facts ht).2.1, nofun⟩
  | dynArray e =>
    obtain ⟨-, hmod, -⟩ := StaticType.fixedSize_facts ht
    cases v
    case array items =>
      have hdvd : 32 ∣ items.length * e.fixedSize :=
        Dvd.dvd.mul_left (Nat.dvd_of_mod_eq_zero hmod) _
      simp only [encodedSize]
      omega
    all_goals simp [encodedSize, admits]
  | bytes | string => cases v <;> simp [encodedSize, isDynamic, admits]

end AbiType

namespace ParameterList

def admits (L : ParameterList) (vs : List Value) : Bool :=
  vs.length == L.types.length && (L.types.zip vs).all fun (t, v) => t.admits v

def encodedSize (L : ParameterList) (vs : List Value) : Nat :=
  (List.zipWith (fun t v => t.headSize + if t.isDynamic then t.encodedSize v else 0) L.types vs).sum

theorem admits_iff {L : ParameterList} {vs : List Value} :
    L.admits vs = true ↔ List.Forall₂ (fun t v => t.admits v = true) L.types vs := by
  rw [List.forall₂_iff_zip]
  simp only [admits, Bool.and_eq_true, beq_iff_eq, List.all_eq_true, Prod.forall]
  constructor <;> rintro ⟨hlen, h⟩ <;> exact ⟨hlen.symm, h⟩

end ParameterList

end ContractAbi
