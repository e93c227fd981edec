import ContractAbi.Proofs.Typing
import ContractAbi.Proofs.Utf8
import Mathlib.Algebra.Order.GroupWithZero.Basic
/-!
Single values read back. A value of a well-formed type decodes from its encoding
(`StaticType.decode_of_encode`, `AbiType.decode_of_encode`), and a buffer that decodes is the
encoding of what it decodes to, up to the bytes decoding does not read (`encode_of_decode`): the
twelve high bytes of an address word, the eight high bytes of a function word, the bytes after
the first `K` of a `bytesK` word, and the padding after the data of a `bytes` or `string` payload.
`Bytes.clear` zeroes those bytes.
-/

namespace ContractAbi

theorem ByteVec.lastOf_append {n : Nat} (pre : Bytes) (v : ByteVec n) :
    ByteVec.lastOf n (pre ++ v.bytes) = v := by
  obtain ⟨bs, hbs⟩ := v
  simp only [ByteVec.lastOf, List.length_append, hbs, ByteVec.mk.injEq]
  rw [Nat.sub_eq_zero_of_le (by omega), List.replicate_zero, List.nil_append,
    Nat.add_sub_cancel, List.drop_left]

theorem ByteVec.bytes_lastOf {n : Nat} {w : Bytes} (h : n ≤ w.length) :
    (ByteVec.lastOf n w).bytes = w.drop (w.length - n) := by
  simp [ByteVec.lastOf, Nat.sub_eq_zero_of_le h]

theorem uintMax_lt {b : Nat} (hb : b ≤ 256) : uintMax b < Nat.pow 2 256 := by
  have h : Nat.pow 2 b ≤ Nat.pow 2 256 := Nat.pow_le_pow_right (by omega) hb
  have hpos : 0 < Nat.pow 2 b := Nat.two_pow_pos b
  simp only [uintMax]
  omega

theorem intRange_le {b : Nat} (hb0 : 0 < b) (hb : b ≤ 256) :
    -Int.pow 2 255 ≤ intMin b ∧ intMax b < Int.pow 2 255 := by
  have h : (2 : Int) ^ (b - 1) ≤ 2 ^ 255 := pow_le_pow_right₀ (by norm_num) (by omega)
  change Int.pow 2 (b - 1) ≤ Int.pow 2 255 at h
  simp only [intMin, intMax]
  omega

namespace Bytes

def clear (mask : List Bool) (bs : Bytes) : Bytes :=
  List.zipWith (fun m b => if m then 0 else b) mask bs

theorem length_clear (mask : List Bool) (bs : Bytes) :
    (clear mask bs).length = min mask.length bs.length :=
  List.length_zipWith

theorem clear_append {m₁ m₂ : List Bool} {b₁ b₂ : Bytes} (h : m₁.length = b₁.length) :
    clear (m₁ ++ m₂) (b₁ ++ b₂) = clear m₁ b₁ ++ clear m₂ b₂ :=
  List.zipWith_append h

theorem clear_none : ∀ {bs : Bytes} {n : Nat}, bs.length = n → clear (List.replicate n false) bs = bs
  | [], _, h => by rw [← h]; rfl
  | b :: bs, n, h => by
    rw [← h, List.length_cons, List.replicate_succ, clear, List.zipWith_cons_cons, ← clear,
      clear_none rfl]
    rfl

theorem clear_all : ∀ {bs : Bytes} {n : Nat}, bs.length = n →
    clear (List.replicate n true) bs = List.replicate n 0
  | [], _, h => by rw [← h]; rfl
  | b :: bs, n, h => by
    rw [← h, List.length_cons, List.replicate_succ, clear, List.zipWith_cons_cons, ← clear,
      clear_all rfl]
    rfl

theorem clear_front {bs : Bytes} {n m : Nat} (h : n + m = bs.length) :
    clear (List.replicate n true ++ List.replicate m false) bs = List.replicate n 0 ++ bs.drop n := by
  obtain ⟨a, b, rfl, rfl⟩ : ∃ a b, bs = a ++ b ∧ a.length = n :=
    ⟨bs.take n, bs.drop n, (List.take_append_drop n bs).symm, List.length_take_of_le (by omega)⟩
  obtain rfl : b.length = m := by rw [List.length_append] at h; omega
  rw [clear_append List.length_replicate, clear_all rfl, clear_none rfl, List.drop_left]

theorem clear_back {bs : Bytes} {n m : Nat} (h : n + m = bs.length) :
    clear (List.replicate n false ++ List.replicate m true) bs = bs.take n ++ List.replicate m 0 := by
  obtain ⟨a, b, rfl, rfl⟩ : ∃ a b, bs = a ++ b ∧ a.length = n :=
    ⟨bs.take n, bs.drop n, (List.take_append_drop n bs).symm, List.length_take_of_le (by omega)⟩
  obtain rfl : b.length = m := by rw [List.length_append] at h; omega
  rw [clear_append List.length_replicate, clear_all rfl, clear_none rfl, List.take_left]

theorem flatten_map_clear {m : List Bool} : ∀ {cs : List Bytes}, (∀ c ∈ cs, c.length = m.length) →
    (cs.map (clear m)).flatten = clear (List.replicate cs.length m).flatten cs.flatten
  | [], _ => rfl
  | c :: cs, h => by
    rw [List.map_cons, List.flatten_cons, List.length_cons, List.replicate_succ, List.flatten_cons,
      List.flatten_cons, clear_append (h c List.mem_cons_self).symm,
      flatten_map_clear fun c' hc' => h c' (List.mem_cons_of_mem c hc')]

end Bytes

namespace StaticType

theorem decodeUint_eq_ok {b : Nat} {w : Bytes} {n : Nat} :
    decodeUint b w = .ok n ↔ Word.toNat w = n ∧ n ≤ uintMax b := by
  unfold decodeUint
  by_cases hbig : Word.toNat w > uintMax b
  · simp only [hbig, if_true, reduceCtorEq, false_iff]
    omega
  · simp only [hbig, if_false, Except.ok.injEq]
    omega

theorem decodeInt_eq_ok {b : Nat} {w : Bytes} {x : Int} :
    decodeInt b w = .ok x ↔ Word.toInt w = x ∧ intMin b ≤ x ∧ x ≤ intMax b := by
  unfold decodeInt
  by_cases hout : Word.toInt w < intMin b ∨ Word.toInt w > intMax b
  · simp only [hout, if_true, reduceCtorEq, false_iff]
    omega
  · simp only [hout, if_false, Except.ok.injEq]
    omega

theorem decodeUint_word {b n : Nat} (hb : b ≤ 256) (hn : n ≤ uintMax b) :
    decodeUint b (Word.ofNat n) = .ok n :=
  decodeUint_eq_ok.2 ⟨Word.toNat_ofNat_of_lt (by have := uintMax_lt hb; omega), hn⟩

theorem decodeInt_word {b : Nat} {x : Int} (hb0 : 0 < b) (hb : b ≤ 256)
    (hx : intMin b ≤ x ∧ x ≤ intMax b) :
    decodeInt b (Word.ofNat (x % Int.pow 2 256).toNat) = .ok x := by
  have hr := intRange_le hb0 hb
  exact decodeInt_eq_ok.2 ⟨Word.toInt_ofNat_emod (by omega) (by omega), hx⟩

theorem decode_scalar {t : StaticType} (ht : ∀ e k, t ≠ array e k) (w : Bytes) :
    t.decode w = (do Codec.expectLen w wordSize; t.decodeScalar w) := by
  cases t
  case array e k => exact absurd rfl (ht e k)
  all_goals rfl

theorem decodeScalar_bool {w : Bytes} (hw : Word.toNat w ≤ 1) :
    decodeScalar .bool w = .ok (.bool (Word.toNat w == 1)) := by
  simp only [decodeScalar, gt_iff_lt]
  rw [if_neg (by omega)]

theorem decodeScalar_of_encodeScalar {t : StaticType} (ht : t.WellFormed) {v : Value} {w : Bytes}
    (h : t.encodeScalar v = .ok w) : t.decodeScalar w = .ok v := by
  cases t <;> cases v <;> simp only [encodeScalar, reduceCtorEq] at h
  case uint.uint b n =>
    split_ifs at h with hn
    obtain rfl := Except.ok.inj h
    simp only [decodeScalar, decodeUint_word ht.2.1 (Nat.le_of_not_lt hn)]
    rfl
  case int.int b x =>
    split_ifs at h with hx
    obtain rfl := Except.ok.inj h
    simp only [decodeScalar, decodeInt_word (x := x) ht.1 ht.2.1 (by omega)]
    rfl
  case bool.bool b =>
    obtain rfl := Except.ok.inj h
    have hv : Word.toNat (Word.ofNat (if b then 1 else 0)) = if b then 1 else 0 :=
      Word.toNat_ofNat_of_le_machineMax (by rw [machineMax_eq]; split <;> omega)
    rw [decodeScalar_bool (by rw [hv]; split <;> omega), hv]
    cases b <;> rfl
  case address.address a =>
    obtain rfl := Except.ok.inj h
    simp only [decodeScalar, ByteVec.lastOf_append]
  case function.function f =>
    obtain rfl := Except.ok.inj h
    simp only [decodeScalar, ByteVec.lastOf_append]
  case fixedBytes.fixedBytes l bs =>
    split_ifs at h with hl
    obtain rfl := Except.ok.inj h
    simp only [decodeScalar, List.take_left' (by omega : bs.length = l)]
  case fixed.fixed m n x =>
    obtain ⟨hm, -, -, -, hmn⟩ := ht
    split_ifs at h with hn hx
    obtain rfl := Except.ok.inj h
    simp only [decodeScalar, decodeInt_word (x := x.raw) (by omega) hmn (by omega), Except.map]
    rw [← (by omega : x.fracBits = n)]
  case ufixed.fixed m n x =>
    obtain ⟨-, -, -, -, hmn⟩ := ht
    split_ifs at h with hn hx
    obtain rfl := Except.ok.inj h
    have hraw : x.raw.toNat ≤ uintMax (m + n) := by omega
    -- the decoder reads the raw number as a natural number and lifts it back
    simp only [decodeScalar, decodeUint_word hmn hraw, Except.map, bind, Except.bind, pure,
      Except.pure, Int.toNat_of_nonneg (by omega : 0 ≤ x.raw)]
    rw [← (by omega : x.fracBits = n)]

theorem decode_of_encode {t : StaticType} (ht : t.WellFormed) {v : Value} {w : Bytes}
    (h : t.encode v = .ok w) : t.decode w = .ok v := by
  induction t generalizing v w with
  | array e k ih =>
    obtain ⟨he, -, -⟩ := ht
    cases v <;> simp only [encode, reduceCtorEq] at h
    case array items =>
      split_ifs at h with hk
      obtain ⟨ps, hps, rfl⟩ := Except.map_eq_ok.1 h
      have hall := Except.mapM_eq_ok.1 hps
      obtain ⟨-, hlen⟩ := forall₂_encode (encode_eq_ok he) hall
      have hk' : ps.length = k := by rw [← hall.length_eq]; omega
      -- the elements sit end to end, one chunk of the element's size each
      have hsize : ps.flatten.length = e.fixedSize * k := by
        rw [Codec.length_flatten_of_length_eq hlen, hk', Nat.mul_comm]
      have hchunks : Codec.chunks ps.flatten e.fixedSize k = ps := by
        rw [← hk']
        exact Codec.chunks_flatten hlen
      have hdec : ps.mapM e.decode = .ok items :=
        Except.mapM_eq_ok.2 (hall.imp fun _ _ hvp => ih he hvp).flip
      simp only [decode, Codec.expectLen_eq_ok.2 hsize, hchunks, hdec, bind, Except.bind, pure,
        Except.pure]
  | _ =>
    have hw := (encodeScalar_eq_ok ht h).2
    rw [decode_scalar (fun _ _ h => by cases h), wordSize_eq, Codec.expectLen_eq_ok.2 hw]
    exact decodeScalar_of_encodeScalar ht h

/-- The bytes of an encoding that decoding does not read: the twelve high bytes of an address,
the eight high bytes of a function reference, the bytes after the first `K` of a `bytesK`, and
those of each element of an array. -/
def ignored : StaticType → List Bool
  | .address => List.replicate 12 true ++ List.replicate 20 false
  | .function => List.replicate 8 true ++ List.replicate 24 false
  | .fixedBytes l => List.replicate l false ++ List.replicate (32 - l) true
  | .array e k => (List.replicate k e.ignored).flatten
  | _ => List.replicate 32 false

theorem length_ignored {t : StaticType} (ht : t.WellFormed) : t.ignored.length = t.fixedSize := by
  induction t with
  | array e k ih =>
    simp only [ignored, fixedSize, List.length_flatten, List.map_replicate, ih ht.1,
      List.sum_replicate_nat]
    rw [Nat.mul_comm]
  | fixedBytes l =>
    simp only [ignored, List.length_append, List.length_replicate, fixedSize, wordSize_eq]
    have := ht.2
    omega
  | _ => rfl

theorem encodeScalar_of_decodeScalar {t : StaticType} (ht : t.WellFormed) {w : Bytes} {v : Value}
    (hw : w.length = 32) (h : t.decodeScalar w = .ok v) :
    t.encodeScalar v = .ok (Bytes.clear t.ignored w) := by
  have hnone : Bytes.clear (List.replicate 32 false) w = w := Bytes.clear_none hw
  cases t with
  | uint b =>
    obtain ⟨n, hn, rfl⟩ := Except.map_eq_ok.1 h
    obtain ⟨rfl, hle⟩ := decodeUint_eq_ok.1 hn
    simp only [encodeScalar, ignored, hnone, gt_iff_lt, Nat.not_lt.2 hle, if_false,
      Word.ofNat_toNat hw]
  | int b =>
    obtain ⟨x, hx, rfl⟩ := Except.map_eq_ok.1 h
    obtain ⟨rfl, hlo, hhi⟩ := decodeInt_eq_ok.1 hx
    simp only [encodeScalar, ignored, hnone, gt_iff_lt]
    rw [if_neg (by omega), Word.ofNat_toInt_emod hw]
  | bool =>
    rw [decodeScalar] at h
    split_ifs at h with hbig
    obtain rfl := Except.ok.inj h
    have hv : (if (Word.toNat w == 1) = true then 1 else 0) = Word.toNat w := by
      by_cases h1 : Word.toNat w = 1
      · simp [h1]
      · rw [if_neg (by simpa using h1)]
        omega
    simp only [encodeScalar, ignored, hnone, hv, Word.ofNat_toNat hw]
  | address =>
    obtain rfl := Except.ok.inj h
    simp only [encodeScalar, ignored, ByteVec.bytes_lastOf (by omega : 20 ≤ w.length), hw,
      Bytes.clear_front (by omega : 12 + 20 = w.length)]
  | function =>
    obtain rfl := Except.ok.inj h
    simp only [encodeScalar, ignored, ByteVec.bytes_lastOf (by omega : 24 ≤ w.length), hw,
      Bytes.clear_front (by omega : 8 + 24 = w.length)]
  | fixedBytes l =>
    obtain rfl := Except.ok.inj h
    have hl : (w.take l).length = l := List.length_take_of_le (by have := ht.2; omega)
    simp only [encodeScalar, ignored, hl, ne_eq, not_true_eq_false, if_false,
      Bytes.clear_back (by have := ht.2; omega : l + (32 - l) = w.length)]
  | fixed m n =>
    obtain ⟨x, hx, rfl⟩ := Except.map_eq_ok.1 h
    obtain ⟨rfl, hlo, hhi⟩ := decodeInt_eq_ok.1 hx
    simp only [encodeScalar, ignored, hnone, ne_eq, not_true_eq_false, if_false, gt_iff_lt]
    rw [if_neg (by omega), Word.ofNat_toInt_emod hw]
  | ufixed m n =>
    obtain ⟨x, hx, rfl⟩ := Except.map_eq_ok.1 h
    obtain ⟨u, hu, hpure⟩ := Except.bind_eq_ok.1 hx
    obtain rfl := Except.pure_eq_ok.1 hpure
    obtain ⟨rfl, hle⟩ := decodeUint_eq_ok.1 hu
    simp only [encodeScalar, ignored, hnone, ne_eq, not_true_eq_false, if_false, gt_iff_lt]
    rw [if_neg (by omega), Int.toNat_natCast, Word.ofNat_toNat hw]
  | array e k => simp [decodeScalar] at h

theorem encode_of_decode {t : StaticType} (ht : t.WellFormed) {w : Bytes} {v : Value}
    (h : t.decode w = .ok v) :
    t.encode v = .ok (Bytes.clear t.ignored w) ∧ w.length = t.fixedSize := by
  induction t generalizing w v with
  | array e k ih =>
    obtain ⟨he, -, -⟩ := ht
    obtain ⟨u, hlen, hrest⟩ := Except.bind_eq_ok.1 h
    obtain ⟨items, hitems, hpure⟩ := Except.bind_eq_ok.1 hrest
    obtain rfl := Except.pure_eq_ok.1 hpure
    have hw : w.length = e.fixedSize * k := Codec.expectLen_eq_ok.1 hlen
    have hall := Except.mapM_eq_ok.1 hitems
    have hk : items.length = k := by rw [← hall.length_eq, Codec.length_chunks]
    have hchunk (c : Bytes) (hc : c ∈ Codec.chunks w e.fixedSize k) : c.length = e.ignored.length := by
      rw [Codec.length_of_mem_chunks (by omega) hc, length_ignored he]
    -- each element re-encodes as its chunk with the unread bytes cleared
    have henc : List.Forall₂ (fun v p => e.encode v = .ok p) items
        ((Codec.chunks w e.fixedSize k).map (Bytes.clear e.ignored)) :=
      List.forall₂_map_right_iff.2 (hall.imp fun _ _ hcv => (ih he hcv).1).flip
    refine ⟨?_, hw⟩
    simp only [encode, hk, ne_eq, not_true_eq_false, if_false, Except.mapM_eq_ok.2 henc,
      Except.map, ignored]
    rw [Bytes.flatten_map_clear hchunk, Codec.length_chunks, Codec.flatten_chunks hw]
  | _ =>
    rw [decode_scalar (fun _ _ h => by cases h)] at h
    obtain ⟨u, hlen, hdec⟩ := Except.bind_eq_ok.1 h
    have hw : w.length = 32 := Codec.expectLen_eq_ok.1 hlen
    exact ⟨encodeScalar_of_decodeScalar ht hw hdec, hw⟩

theorem payloadLen_eq_ok {e : StaticType} {count p : Nat} :
    e.payloadLen count = .ok p ↔ count * e.fixedSize = p ∧ p ≤ machineMax := by
  unfold payloadLen
  by_cases hbig : count * e.fixedSize > machineMax
  · simp only [hbig, if_true, reduceCtorEq, false_iff]
    omega
  · simp only [hbig, if_false, Except.ok.injEq]
    omega

end StaticType

namespace Codec

def paddingIgnored (n : Nat) : List Bool :=
  List.replicate (32 + n) false ++ List.replicate ((n + 31) / 32 * 32 - n) true

theorem encodePadded_of_decodePadded {data bs : Bytes} (h : decodePadded data = .ok bs) :
    encodePadded bs = Bytes.clear (paddingIgnored bs.length) data ∧
      (paddingIgnored bs.length).length = data.length := by
  obtain ⟨h32, hword, -, hlen, hbs⟩ := decodePadded_eq_ok h
  have hpad : bs.length ≤ (bs.length + 31) / 32 * 32 := by omega
  have hsplit : (32 + bs.length) + ((bs.length + 31) / 32 * 32 - bs.length) = data.length := by
    omega
  -- the length word and the data are kept, the padding is cleared
  have hhead : data.take (32 + bs.length) = Word.ofNat bs.length ++ bs := by
    rw [List.take_add, ← hbs, ← hword, Word.ofNat_toNat (List.length_take_of_le h32)]
  refine ⟨?_, by simp only [paddingIgnored, List.length_append, List.length_replicate]; omega⟩
  rw [paddingIgnored, Bytes.clear_back hsplit, hhead, encodePadded, List.append_assoc]

end Codec

namespace AbiType

/-- The bytes of an encoding that decoding does not read: those of a static type, the padding
of a `bytes` or `string` payload, and those of each element of a `T[]`. -/
def ignored : AbiType → Value → List Bool
  | .static t, _ => t.ignored
  | .bytes, .bytes bs => Codec.paddingIgnored bs.length
  | .string, .string s => Codec.paddingIgnored (Utf8.encode s).length
  | .dynArray e, .array items =>
    List.replicate 32 false ++ (List.replicate items.length e.ignored).flatten
  | _, _ => []

theorem decode_of_encode {t : AbiType} (ht : t.WellFormed) {v : Value} {w : Bytes}
    (h : t.encode v = .ok w) (hw : w.length ≤ machineMax) : t.decode w = .ok v := by
  cases t with
  | static s => exact StaticType.decode_of_encode ht h
  | bytes =>
    cases v <;> simp only [encode, reduceCtorEq] at h
    case bytes bs =>
      obtain rfl := Except.ok.inj h
      rw [Codec.length_encodePadded] at hw
      simp only [decode, Codec.decodePadded_encodePadded
        (by omega : (bs.length + 31) / 32 * 32 ≤ machineMax), Except.map]
  | string =>
    cases v <;> simp only [encode, reduceCtorEq] at h
    case string s =>
      obtain rfl := Except.ok.inj h
      rw [Codec.length_encodePadded] at hw
      simp only [decode, Codec.decodePadded_encodePadded
        (by omega : ((Utf8.encode s).length + 31) / 32 * 32 ≤ machineMax),
        Utf8.decode_encode, bind,
        Except.bind, pure, Except.pure]
  | dynArray e =>
    cases v <;> simp only [encode, reduceCtorEq] at h
    case array items =>
      obtain ⟨ps, hps, rfl⟩ := Except.map_eq_ok.1 h
      have hall := Except.mapM_eq_ok.1 hps
      obtain ⟨-, hlen⟩ := StaticType.forall₂_encode (StaticType.encode_eq_ok ht) hall
      have hsize : ps.flatten.length = items.length * e.fixedSize := by
        rw [Codec.length_flatten_of_length_eq hlen, hall.length_eq]
      have hpos := StaticType.fixedSize_pos ht
      simp only [List.length_append, Word.length_ofNat, hsize] at hw
      -- the count and the payload size are machine-sized, so the length checks pass
      have hcount : items.length ≤ machineMax := by
        have := Nat.le_mul_of_pos_right items.length hpos
        omega
      have hread := Codec.readLength_word_append hcount ps.flatten
      have hpay : e.payloadLen items.length = .ok (items.length * e.fixedSize) :=
        StaticType.payloadLen_eq_ok.2 ⟨rfl, by omega⟩
      have hrest : (Word.ofNat items.length ++ ps.flatten).length - wordSize =
          items.length * e.fixedSize := by
        simp [Word.length_ofNat, hsize]
      have helems : e.decodeElements ((Word.ofNat items.length ++ ps.flatten).drop wordSize)
          items.length = .ok items := by
        rw [wordSize_eq, List.drop_left' (Word.length_ofNat _), StaticType.decodeElements,
          hall.length_eq, Codec.chunks_flatten hlen]
        exact Except.mapM_eq_ok.2 (hall.imp fun _ _ hvp => StaticType.decode_of_encode ht hvp).flip
      simp only [decode, hread, hpay, hrest, helems, ne_eq, not_true_eq_false, if_false, bind,
        Except.bind, pure, Except.pure]

/-- A buffer that decodes as a value of a well-formed type is the value's encoding, up to the
bytes decoding does not read. -/
theorem encode_of_decode {t : AbiType} (ht : t.WellFormed) {w : Bytes} {v : Value}
    (h : t.decode w = .ok v) :
    t.encode v = .ok (Bytes.clear (t.ignored v) w) ∧ (t.ignored v).length = w.length := by
  cases t with
  | static s =>
    obtain ⟨henc, hw⟩ := StaticType.encode_of_decode ht h
    exact ⟨henc, by rw [hw]; exact StaticType.length_ignored ht⟩
  | bytes =>
    obtain ⟨bs, hbs, rfl⟩ := Except.map_eq_ok.1 h
    obtain ⟨henc, hlen⟩ := Codec.encodePadded_of_decodePadded hbs
    exact ⟨by rw [encode, henc]; rfl, hlen⟩
  | string =>
    obtain ⟨bs, hbs, hrest⟩ := Except.bind_eq_ok.1 h
    split at hrest
    case h_1 s hs =>
      obtain rfl := Except.pure_eq_ok.1 hrest
      have hbs' := Utf8.encode_of_decode hs
      obtain ⟨henc, hlen⟩ := Codec.encodePadded_of_decodePadded hbs
      rw [← hbs'] at henc hlen
      exact ⟨by rw [encode, henc]; rfl, hlen⟩
    case h_2 => exact absurd hrest Except.throw_ne_ok
  | dynArray e =>
    obtain ⟨count, hread, hrest⟩ := Except.bind_eq_ok.1 h
    obtain ⟨payload, hpay, hrest⟩ := Except.bind_eq_ok.1 hrest
    obtain ⟨h32, hword, -⟩ := Codec.readLength_eq_ok.1 hread
    obtain ⟨rfl, -⟩ := StaticType.payloadLen_eq_ok.1 hpay
    simp only [wordSize_eq] at hrest
    by_cases hne : w.length - 32 = count * e.fixedSize
    · simp only [hne, ne_eq, not_true_eq_false, if_false] at hrest
      obtain ⟨items, hitems, hpure⟩ := Except.bind_eq_ok.1 hrest
      obtain rfl := Except.pure_eq_ok.1 hpure
      have hall := Except.mapM_eq_ok.1 hitems
      have hk : items.length = count := by rw [← hall.length_eq, Codec.length_chunks]
      have hrestlen : (w.drop 32).length = e.fixedSize * count := by
        rw [List.length_drop, hne, Nat.mul_comm]
      have hchunk (c : Bytes) (hc : c ∈ Codec.chunks (w.drop 32) e.fixedSize count) :
          c.length = e.ignored.length := by
        rw [Codec.length_of_mem_chunks (by omega) hc, StaticType.length_ignored ht]
      have henc : List.Forall₂ (fun v p => e.encode v = .ok p) items
          ((Codec.chunks (w.drop 32) e.fixedSize count).map (Bytes.clear e.ignored)) :=
        List.forall₂_map_right_iff.2
          (hall.imp fun _ _ hcv => (StaticType.encode_of_decode ht hcv).1).flip
      -- the count word is kept, each element has its unread bytes cleared
      have hsplit : w = Word.ofNat count ++ w.drop 32 := by
        rw [← hword, Word.ofNat_toNat (List.length_take_of_le h32), List.take_append_drop]
      refine ⟨?_, ?_⟩
      · simp only [encode, Except.mapM_eq_ok.2 henc, Except.map, ignored, hk]
        rw [Bytes.flatten_map_clear hchunk, Codec.length_chunks, Codec.flatten_chunks hrestlen]
        conv_rhs => rw [hsplit]
        rw [Bytes.clear_append (by simp [Word.length_ofNat]),
          Bytes.clear_none (Word.length_ofNat count)]
      · simp only [ignored, hk, List.length_append, List.length_replicate, List.length_flatten,
          List.map_replicate, StaticType.length_ignored ht, List.sum_replicate_nat]
        omega
    · simp [hne, throw, throwThe, MonadExceptOf.throw, bind, Except.bind] at hrest

end AbiType

end ContractAbi
