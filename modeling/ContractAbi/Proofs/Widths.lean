import ContractAbi.Proofs.Dispatch
import ContractAbi.Proofs.Framing
/-!
Encoded widths. The builders make static types that take one word per scalar they hold: a fixed
array takes 32 bytes times the product of the lengths it nests, a positive size that the array
builder keeps machine-sized, and every encoding of a value takes exactly that size. A payload
takes its length or count word and then its data in whole words, or its elements. So the head an
argument list is encoded with takes exactly the bytes `headSize` counts, and the offset written
for each dynamic argument is where its payload starts.
-/

namespace ContractAbi

namespace StaticType

/-- The static types the builders make: a scalar through its checked builder, and a fixed array
of a built type through `arrayOf`. -/
inductive Built : StaticType → Prop
  | uint {b : Nat} {t : StaticType} : uintOf b = .ok t → Built t
  | int {b : Nat} {t : StaticType} : intOf b = .ok t → Built t
  | bool : Built .bool
  | address : Built .address
  | function : Built .function
  | fixedBytes {l : Nat} {t : StaticType} : fixedBytesOf l = .ok t → Built t
  | fixed {m n : Nat} {t : StaticType} : fixedOf m n = .ok t → Built t
  | ufixed {m n : Nat} {t : StaticType} : ufixedOf m n = .ok t → Built t
  | array {e t : StaticType} {k : Nat} : Built e → arrayOf e k = .ok t → Built t

theorem Built.wellFormed {t : StaticType} (h : t.Built) : t.WellFormed := by
  induction h with
  | uint h => exact (uintOf_eq_ok h).2
  | int h => exact (intOf_eq_ok h).2
  | bool | address | function => trivial
  | fixedBytes h => exact (fixedBytesOf_eq_ok h).2
  | fixed h => exact (fixedOf_eq_ok h).2
  | ufixed h => exact (ufixedOf_eq_ok h).2
  | array _ h ih => exact (arrayOf_eq_ok ih h).2

/-- The lengths of the fixed arrays a type nests, innermost first, as its descriptor lists them. -/
def dims : StaticType → List Nat
  | .array t k => t.dims ++ [k]
  | _ => []

example : (array (array (uint 256) 2) 3).dims = [2, 3] := rfl

theorem fixedSize_eq_mul_prod (t : StaticType) : t.fixedSize = 32 * t.dims.prod := by
  induction t with
  | array t k ih => rw [fixedSize, dims, List.prod_append, ih, List.prod_singleton, Nat.mul_assoc]
  | _ => rfl

theorem Built.fixedSize_facts {t : StaticType} (h : t.Built) :
    t.fixedSize = 32 * t.dims.prod ∧ 0 < t.fixedSize ∧ t.fixedSize ≤ machineMax ∧
      ∀ v bs, t.encode v = .ok bs → bs.length = t.fixedSize := by
  have hwf := h.wellFormed
  obtain ⟨hpos, -, hmax⟩ := StaticType.fixedSize_facts hwf
  exact ⟨fixedSize_eq_mul_prod t, hpos, hmax, fun _ _ henc => (encode_eq_ok hwf henc).2⟩

end StaticType

namespace AbiType

/-- An argument type the builders make: its static type, or its array's element, is built. -/
def Built : AbiType → Prop
  | .static t | .dynArray t => t.Built
  | .bytes | .string => True

theorem Built.wellFormed {t : AbiType} (h : t.Built) : t.WellFormed := by
  cases t with
  | static s | dynArray s => exact StaticType.Built.wellFormed h
  | bytes | string => trivial

theorem length_encode_bytes {v : Value} {bs : Bytes} (h : AbiType.bytes.encode v = .ok bs) :
    ∃ x, v = .bytes x ∧ bs.length = 32 + 32 * ((x.length + 31) / 32) := by
  have hlen := (encode_eq_ok (t := .bytes) trivial h).2
  cases v with
  | bytes x => exact ⟨x, rfl, by rw [hlen, encodedSize, Nat.mul_comm]⟩
  | _ => simp [encode] at h

theorem length_encode_string {v : Value} {bs : Bytes} (h : AbiType.string.encode v = .ok bs) :
    ∃ s, v = .string s ∧ bs.length = 32 + 32 * (((Utf8.encode s).length + 31) / 32) := by
  have hlen := (encode_eq_ok (t := .string) trivial h).2
  cases v with
  | string s => exact ⟨s, rfl, by rw [hlen, encodedSize, Nat.mul_comm]⟩
  | _ => simp [encode] at h

theorem length_encode_dynArray {e : StaticType} (he : e.WellFormed) {v : Value} {bs : Bytes}
    (h : (dynArray e).encode v = .ok bs) :
    ∃ items : List Value, v = .array items ∧ bs.length = 32 + items.length * e.fixedSize := by
  have hlen := (encode_eq_ok (t := dynArray e) he h).2
  cases v with
  | array items => exact ⟨items, rfl, hlen⟩
  | _ => simp [encode] at h

end AbiType

namespace ParameterList

theorem fits_append_left : ∀ {ts₁ ts₂ : List AbiType} {ps₁ ps₂ : List Bytes},
    ps₁.length = ts₁.length → Fits (ts₁ ++ ts₂) (ps₁ ++ ps₂) → Fits ts₁ ps₁
  | [], _, [], _, _, _ => trivial
  | _ :: _, _, _ :: _, _, hlen, ⟨hp, h⟩ => ⟨hp, fits_append_left (by simpa using hlen) h⟩

theorem tails_append {α : Type} : ∀ {ts₁ : List AbiType} {ps₁ : List (List α)}
    (ts₂ : List AbiType) (ps₂ : List (List α)), ps₁.length = ts₁.length →
    tails (ts₁ ++ ts₂) (ps₁ ++ ps₂) = tails ts₁ ps₁ ++ tails ts₂ ps₂
  | [], [], _, _, _ => rfl
  | t :: ts₁, p :: ps₁, ts₂, ps₂, hlen => by
    rw [List.cons_append, List.cons_append, tails, tails, tails_append ts₂ ps₂ (by simpa using hlen),
      List.append_assoc]

theorem heads_append {H : Nat} : ∀ {ts₁ : List AbiType} {ps₁ : List Bytes}
    (ts₂ : List AbiType) (ps₂ : List Bytes) (before : Nat), ps₁.length = ts₁.length →
    heads H (ts₁ ++ ts₂) (ps₁ ++ ps₂) before =
      heads H ts₁ ps₁ before ++ heads H ts₂ ps₂ (before + (tails ts₁ ps₁).length)
  | [], [], _, _, before, _ => by simp [heads, tails]
  | t :: ts₁, p :: ps₁, ts₂, ps₂, before, hlen => by
    have hlen' : ps₁.length = ts₁.length := by simpa using hlen
    by_cases hd : t.isDynamic
    · simp only [List.cons_append, heads, tails, hd, if_true, heads_append ts₂ ps₂ _ hlen',
        List.length_append, List.append_assoc, Nat.add_assoc]
    · simp only [List.cons_append, heads, tails, hd, Bool.false_eq_true, if_false,
        heads_append ts₂ ps₂ _ hlen', List.nil_append, List.append_assoc]

theorem wordAt_append_ofNat {pre rest : Bytes} {n : Nat} (hn : n ≤ machineMax) :
    wordAt (pre ++ (Word.ofNat n ++ rest)) pre.length = n := by
  rw [wordAt, List.drop_left, take_word_append, Word.toNat_ofNat_of_le_machineMax hn]

theorem wordAt_heads {H before : Nat} {ts₁ ts₂ : List AbiType} {t : AbiType}
    {ps₁ ps₂ : List Bytes} {p rest : Bytes} (hfit : Fits ts₁ ps₁) (hd : t.isDynamic = true)
    (hmax : H + before + (tails ts₁ ps₁).length ≤ machineMax) :
    wordAt (heads H (ts₁ ++ t :: ts₂) (ps₁ ++ p :: ps₂) before ++ rest)
        (ts₁.map AbiType.headSize).sum =
      H + before + (tails ts₁ ps₁).length := by
  rw [heads_append _ _ _ hfit.length_eq, ← @length_heads H _ _ before hfit]
  simp only [heads, hd, if_true, List.append_assoc]
  rw [wordAt_append_ofNat (by omega)]
  omega

theorem drop_layout {H : Nat} {ts₁ ts₂ : List AbiType} {t : AbiType} {ps₁ ps₂ : List Bytes}
    {p head : Bytes} (hhead : head.length = H) (hlen : ps₁.length = ts₁.length)
    (hd : t.isDynamic = true) :
    (head ++ tails (ts₁ ++ t :: ts₂) (ps₁ ++ p :: ps₂)).drop (H + (tails ts₁ ps₁).length) =
      p ++ tails ts₂ ps₂ := by
  rw [← List.drop_drop, ← hhead, List.drop_left, tails_append _ _ hlen, List.drop_left]
  simp [tails, hd]

/-- In a laid-out buffer that fits a machine-sized length, the offset in the slot of each
dynamic argument is the head's size plus the payloads before its own, and its payload starts
there, followed by the later ones. -/
theorem payload_at_offset {H : Nat} {ts : List AbiType} {ps : List Bytes} {b : Bytes}
    (hfit : Fits ts ps) (hb : b = heads H ts ps 0 ++ tails ts ps)
    (hhead : (heads H ts ps 0).length = H) (hmax : b.length ≤ machineMax)
    {ts₁ ts₂ : List AbiType} {t : AbiType} {ps₁ ps₂ : List Bytes} {p : Bytes}
    (hts : ts = ts₁ ++ t :: ts₂) (hps : ps = ps₁ ++ p :: ps₂) (hlen : ps₁.length = ts₁.length)
    (hd : t.isDynamic = true) :
    wordAt b (ts₁.map AbiType.headSize).sum = H + (tails ts₁ ps₁).length ∧
      b.drop (H + (tails ts₁ ps₁).length) = p ++ tails ts₂ ps₂ := by
  subst hts hps hb
  -- the payloads of the run lie inside the buffer, so the offset is machine-sized
  have hT : H + (tails ts₁ ps₁).length ≤ machineMax := by
    rw [List.length_append, hhead, tails_append _ _ hlen, List.length_append] at hmax
    omega
  refine ⟨?_, drop_layout hhead hlen hd⟩
  rw [wordAt_heads (fits_append_left hlen hfit) hd (by omega), Nat.add_zero]

theorem encode_eq_heads_tails {L : ParameterList} (hwf : ∀ t ∈ L.types, t.WellFormed)
    {vs : List Value} {b : Bytes} (h : L.encode vs = .ok b) (hb : b.length ≤ machineMax) :
    ∃ ps, Encodes L.types vs ps ∧ b = heads L.headSize L.types ps 0 ++ tails L.types ps ∧
      (heads L.headSize L.types ps 0).length = L.headSize := by
  rw [encode] at h
  split_ifs at h with hlen
  obtain ⟨ps, henc⟩ := encodes_of_encodeParts (by omega) h
  have hlayout := eq_layout_of_encodeParts [] [] henc h
  simp only [List.nil_append, List.length_nil, List.append_nil] at hlayout
  have hheads := @length_heads L.headSize _ _ 0 (fits_of_encodes hwf henc)
  have hsum : (L.types.map AbiType.headSize).sum ≤ machineMax := by
    rw [hlayout, List.length_append, hheads] at hb
    omega
  refine ⟨ps, henc, hlayout, ?_⟩
  rw [hheads, headSize_eq_min]
  omega

end ParameterList

/-- Encoded widths match the declared layout. -/
theorem encoded_widths_match_layout :
    (∀ t : StaticType, t.Built →
      t.fixedSize = 32 * t.dims.prod ∧ 0 < t.fixedSize ∧ t.fixedSize ≤ machineMax ∧
        ∀ v bs, t.encode v = .ok bs → bs.length = t.fixedSize) ∧
    (∀ v bs, AbiType.bytes.encode v = .ok bs →
      ∃ x, v = .bytes x ∧ bs.length = 32 + 32 * ((x.length + 31) / 32)) ∧
    (∀ v bs, AbiType.string.encode v = .ok bs →
      ∃ s, v = .string s ∧ bs.length = 32 + 32 * (((Utf8.encode s).length + 31) / 32)) ∧
    (∀ e : StaticType, e.Built → ∀ v bs, (AbiType.dynArray e).encode v = .ok bs →
      ∃ items : List Value, v = .array items ∧ bs.length = 32 + items.length * e.fixedSize) ∧
    ∀ L : ParameterList, (∀ t ∈ L.types, t.Built) → ∀ vs b, L.encode vs = .ok b →
      b.length ≤ machineMax →
      ∃ ps, ParameterList.Encodes L.types vs ps ∧
        b = ParameterList.heads L.headSize L.types ps 0 ++ ParameterList.tails L.types ps ∧
        (ParameterList.heads L.headSize L.types ps 0).length = L.headSize ∧
        ∀ ts₁ t ts₂ ps₁ p ps₂, L.types = ts₁ ++ t :: ts₂ → ps = ps₁ ++ p :: ps₂ →
          ps₁.length = ts₁.length → t.isDynamic = true →
          ParameterList.wordAt b (ts₁.map AbiType.headSize).sum =
              L.headSize + (ParameterList.tails ts₁ ps₁).length ∧
            b.drop (L.headSize + (ParameterList.tails ts₁ ps₁).length) =
              p ++ ParameterList.tails ts₂ ps₂ := by
  refine ⟨fun t ht => ht.fixedSize_facts, fun _ _ h => AbiType.length_encode_bytes h,
    fun _ _ h => AbiType.length_encode_string h,
    fun e he _ _ h => AbiType.length_encode_dynArray he.wellFormed h, ?_⟩
  intro L hL vs b h hb
  have hwf : ∀ t ∈ L.types, t.WellFormed := fun t ht => (hL t ht).wellFormed
  obtain ⟨ps, henc, hlayout, hhead⟩ := ParameterList.encode_eq_heads_tails hwf h hb
  refine ⟨ps, henc, hlayout, hhead, fun ts₁ t ts₂ ps₁ p ps₂ hts hps hlen hd => ?_⟩
  exact ParameterList.payload_at_offset (ParameterList.fits_of_encodes hwf henc) hlayout hhead hb
    hts hps hlen hd

theorem encoded_widths_match_layout_sample :
    (∀ t ∈ (⟨[.static (.uint 8), .bytes]⟩ : ParameterList).types, t.Built) ∧
      (⟨[.static (.uint 8), .bytes]⟩ : ParameterList).encode [.uint 5, .bytes [9]] =
        .ok (Word.ofNat 5 ++ Word.ofNat 64 ++ Word.ofNat 1 ++ [9] ++ List.replicate 31 0) ∧
      (Word.ofNat 5 ++ Word.ofNat 64 ++ Word.ofNat 1 ++ [9] ++ List.replicate 31 0).length ≤
        machineMax ∧
      ∃ ps, ParameterList.Encodes [.static (.uint 8), .bytes] [.uint 5, .bytes [9]] ps ∧
        Word.ofNat 5 ++ Word.ofNat 64 ++ Word.ofNat 1 ++ [9] ++ List.replicate 31 0 =
          ParameterList.heads (⟨[.static (.uint 8), .bytes]⟩ : ParameterList).headSize
            [.static (.uint 8), .bytes] ps 0 ++ ParameterList.tails [.static (.uint 8), .bytes] ps ∧
        (ParameterList.heads (⟨[.static (.uint 8), .bytes]⟩ : ParameterList).headSize
          [.static (.uint 8), .bytes] ps 0).length =
          (⟨[.static (.uint 8), .bytes]⟩ : ParameterList).headSize ∧
        ∀ ts₁ t ts₂ ps₁ p ps₂, [AbiType.static (.uint 8), .bytes] = ts₁ ++ t :: ts₂ →
          ps = ps₁ ++ p :: ps₂ → ps₁.length = ts₁.length → t.isDynamic = true →
          ParameterList.wordAt (Word.ofNat 5 ++ Word.ofNat 64 ++ Word.ofNat 1 ++ [9] ++
              List.replicate 31 0) (ts₁.map AbiType.headSize).sum =
              (⟨[.static (.uint 8), .bytes]⟩ : ParameterList).headSize +
                (ParameterList.tails ts₁ ps₁).length ∧
            (Word.ofNat 5 ++ Word.ofNat 64 ++ Word.ofNat 1 ++ [9] ++ List.replicate 31 0).drop
                ((⟨[.static (.uint 8), .bytes]⟩ : ParameterList).headSize +
                  (ParameterList.tails ts₁ ps₁).length) =
              p ++ ParameterList.tails ts₂ ps₂ := by
  have hL : ∀ t ∈ (⟨[.static (.uint 8), .bytes]⟩ : ParameterList).types, t.Built := by
    intro t ht
    simp only [List.mem_cons, List.not_mem_nil, or_false] at ht
    rcases ht with rfl | rfl
    · exact StaticType.Built.uint (b := 8) rfl
    · trivial
  have h : (⟨[.static (.uint 8), .bytes]⟩ : ParameterList).encode [.uint 5, .bytes [9]] =
      .ok (Word.ofNat 5 ++ Word.ofNat 64 ++ Word.ofNat 1 ++ [9] ++ List.replicate 31 0) := rfl
  have hb : (Word.ofNat 5 ++ Word.ofNat 64 ++ Word.ofNat 1 ++ [9] ++ List.replicate 31 0).length ≤
      machineMax := by simp [Word.length_ofNat, machineMax_eq]
  exact ⟨hL, h, hb, encoded_widths_match_layout.2.2.2.2 _ hL _ _ h hb⟩

end ContractAbi
