import ContractAbi.Proofs.Layout
/-!
Round trip of argument lists. For argument types from the standard registry and values whose
encoding is machine-sized, encoding succeeds exactly when the values have the types; the
encoding is then a whole number of words, at least as long as the head, and decodes back to the
values. The same holds of each type alone.
-/

namespace ContractAbi.ParameterList

section Layout

variable {ts : List AbiType} (hwf : ∀ t ∈ ts, t.WellFormed)
include hwf

theorem fits_of_encodes {vs : List Value} {ps : List Bytes} (h : Encodes ts vs ps) :
    Fits ts ps := by
  induction ts generalizing vs ps with
  | nil => cases vs <;> cases ps <;> first | exact h.elim | trivial
  | cons t ts ih =>
    cases vs <;> cases ps <;> try exact h.elim
    case cons.cons v vs p ps =>
      obtain ⟨hp, hrest⟩ := h
      have ht := hwf t List.mem_cons_self
      obtain ⟨hadm, hlen⟩ := AbiType.encode_eq_ok ht hp
      refine ⟨?_, ih (fun t' ht' => hwf t' (List.mem_cons_of_mem t ht')) hrest⟩
      split
      · have := (AbiType.encodedSize_facts ht v).2 ‹_› hadm
        omega
      · cases t <;> simp_all [AbiType.isDynamic, AbiType.encodedSize, AbiType.headSize]

theorem length_layout {H : Nat} {vs : List Value} {ps : List Bytes} (h : Encodes ts vs ps)
    (before : Nat) :
    (heads H ts ps before).length + (tails ts ps).length =
      (List.zipWith (fun t v => t.headSize + if t.isDynamic then t.encodedSize v else 0) ts vs).sum ∧
    (List.zipWith (fun t v => t.headSize + if t.isDynamic then t.encodedSize v else 0) ts vs).sum
      % 32 = 0 := by
  induction ts generalizing vs ps before with
  | nil => cases vs <;> cases ps <;> first | exact h.elim | exact ⟨rfl, rfl⟩
  | cons t ts ih =>
    cases vs <;> cases ps <;> try exact h.elim
    case cons.cons v vs p ps =>
      obtain ⟨hp, hrest⟩ := h
      have ht := hwf t List.mem_cons_self
      obtain ⟨-, hlen⟩ := AbiType.encode_eq_ok ht hp
      have hmod := (AbiType.encodedSize_facts ht v).1
      obtain ⟨ih1, ih2⟩ := ih (fun t' ht' => hwf t' (List.mem_cons_of_mem t ht')) hrest
        (if t.isDynamic then before + p.length else before)
      simp only [List.zipWith_cons_cons, List.sum_cons]
      by_cases hd : t.isDynamic
      · simp only [heads, tails, hd, if_true, List.length_append, Word.length_ofNat,
          headSize_of_isDynamic hd] at ih1 ⊢
        omega
      · have hstatic : t.headSize = t.encodedSize v := by
          cases t <;> simp_all [AbiType.isDynamic, AbiType.encodedSize, AbiType.headSize]
        simp only [heads, tails, hd, Bool.false_eq_true, if_false, List.length_append,
          List.nil_append] at ih1 ⊢
        omega

theorem admits_of_encodes {vs : List Value} {ps : List Bytes} (h : Encodes ts vs ps) :
    List.Forall₂ (fun t v => t.admits v = true) ts vs := by
  induction ts generalizing vs ps with
  | nil => cases vs <;> cases ps <;> first | exact .nil | exact h.elim
  | cons t ts ih =>
    cases vs <;> cases ps <;> try exact h.elim
    case cons.cons v vs p ps =>
      obtain ⟨hp, hrest⟩ := h
      exact .cons (AbiType.encode_eq_ok (hwf t List.mem_cons_self) hp).1
        (ih (fun t' ht' => hwf t' (List.mem_cons_of_mem t ht')) hrest)

theorem mapM_decode_of_encodes {data : Bytes} (hmax : data.length ≤ machineMax)
    {vs : List Value} {ps : List Bytes} (h : Encodes ts vs ps) {spans : List (Nat × Nat)}
    (hspans : spans.map (slice data) = ps) :
    (ts.zip spans).mapM (fun x => x.1.decode (slice data x.2)) = .ok vs := by
  induction ts generalizing vs ps spans with
  | nil => cases vs <;> cases ps <;> first | rfl | exact h.elim
  | cons t ts ih =>
    cases vs <;> cases ps <;> try exact h.elim
    case cons.cons v vs p ps =>
      obtain ⟨hp, hrest⟩ := h
      cases spans with
      | nil => cases hspans
      | cons s spans =>
        obtain ⟨hs, hspans'⟩ := List.cons.inj hspans
        have hdec : t.decode (slice data s) = .ok v := by
          rw [hs]
          exact AbiType.decode_of_encode (hwf t List.mem_cons_self) hp
            (hs ▸ (length_slice_le data s).trans hmax)
        rw [List.zip_cons_cons, List.mapM_cons, hdec,
          ih (fun t' ht' => hwf t' (List.mem_cons_of_mem t ht')) hrest hspans']
        rfl

end Layout

theorem encodes_of_forall₂ : ∀ {ts : List AbiType} {vs : List Value},
    List.Forall₂ (fun t v => ∃ p, t.encode v = .ok p) ts vs → ∃ ps, Encodes ts vs ps
  | [], [], .nil => ⟨[], trivial⟩
  | _ :: _, _ :: _, .cons ⟨p, hp⟩ h =>
    let ⟨ps, hps⟩ := encodes_of_forall₂ h
    ⟨p :: ps, hp, hps⟩

theorem Encodes.length_eq : ∀ {ts : List AbiType} {vs : List Value} {ps : List Bytes},
    Encodes ts vs ps → vs.length = ts.length
  | [], [], [], _ => rfl
  | _ :: _, _ :: _, _ :: _, ⟨_, h⟩ => congrArg (· + 1) h.length_eq

section Standard

variable {L : ParameterList} (hwf : ∀ t ∈ L.types, t.WellFormed) {vs : List Value}
  (hsize : L.encodedSize vs < machineMax)
include hwf hsize

theorem encode_eq_layout {ps : List Bytes} (henc : Encodes L.types vs ps) :
    L.encode vs = .ok (heads L.headSize L.types ps 0 ++ tails L.types ps) ∧
      L.headSize = (L.types.map AbiType.headSize).sum := by
  have hlen := length_layout hwf (H := L.headSize) henc 0
  have hheads : (heads L.headSize L.types ps 0).length = _ := length_heads (fits_of_encodes hwf henc)
  rw [encodedSize] at hsize
  have hH : L.headSize = (L.types.map AbiType.headSize).sum := by
    rw [headSize_eq_min]
    omega
  refine ⟨?_, hH⟩
  rw [encode, if_neg (by rw [henc.length_eq]; exact not_not.2 rfl),
    encodeParts_eq_ok [] [] henc (by simp only [List.length_nil, Nat.add_zero]; omega)]
  simp

theorem encode_ok_iff_admits : (∃ b, L.encode vs = .ok b) ↔ L.admits vs = true := by
  constructor
  · rintro ⟨b, h⟩
    rw [encode] at h
    split_ifs at h with hlen
    obtain ⟨ps, henc⟩ := encodes_of_encodeParts (by omega) h
    exact admits_iff.2 (admits_of_encodes hwf henc)
  · intro h
    have hall := (admits_iff.1 h).imp fun t v hv => AbiType.encode_ok_of_admits hv
    obtain ⟨ps, henc⟩ := encodes_of_forall₂ hall
    exact ⟨_, (encode_eq_layout hwf hsize henc).1⟩

/-- An encoding decodes back to the values, is a whole number of words and holds the head. -/
theorem decode_of_encode {b : Bytes} (h : L.encode vs = .ok b) :
    L.decode b = .ok vs ∧ b.length % 32 = 0 ∧ L.headSize ≤ b.length := by
  have hlen : vs.length = L.types.length := by
    rw [encode] at h
    split_ifs at h with hne
    omega
  obtain ⟨ps, henc⟩ := encodes_of_encodeParts hlen (by rw [encode, if_neg (by omega)] at h; exact h)
  obtain ⟨hlayout, hH⟩ := encode_eq_layout hwf hsize henc
  have hb : b = heads L.headSize L.types ps 0 ++ tails L.types ps :=
    Except.ok.inj (h.symm.trans hlayout)
  have hfit := fits_of_encodes hwf henc
  obtain ⟨hsum, hmod⟩ := length_layout hwf (H := L.headSize) henc 0
  have hheads : (heads L.headSize L.types ps 0).length = _ := length_heads hfit
  rw [encodedSize] at hsize
  have hblen : b.length = L.headSize + (tails L.types ps).length := by
    rw [hb, List.length_append, hheads, hH]
  have hbmax : b.length ≤ machineMax := by omega
  -- the scan finds the parts where the layout put them
  have hprefix : heads L.headSize L.types ps 0 <+: b.drop 0 := by
    rw [List.drop_zero, hb]
    exact List.prefix_append _ _
  have htails : b.drop (L.headSize + 0) = tails L.types ps := by
    rw [Nat.add_zero, hb, List.drop_left' (by rw [hheads, hH])]
  obtain ⟨spans, hspans, hmap⟩ := spansFrom_layout hbmax hfit hprefix htails (by omega)
  refine ⟨?_, by omega, by omega⟩
  rw [decode_of_spansFrom (by omega) hspans]
  exact mapM_decode_of_encodes hwf hbmax henc hmap

end Standard

end ContractAbi.ParameterList

namespace ContractAbi.ParameterList

/-- Round trip of the head/tail codec over types from the standard registry. -/
theorem decode_encode_standard (L : ParameterList)
    (hL : ∀ t ∈ L.types, ∃ d, Registry.standard.search d = .ok t) (vs : List Value)
    (hsize : L.encodedSize vs < machineMax) :
    ((∃ b, L.encode vs = .ok b) ↔ L.admits vs = true) ∧
      (∀ b, L.encode vs = .ok b →
        L.decode b = .ok vs ∧ b.length % 32 = 0 ∧ L.headSize ≤ b.length) ∧
      ∀ t : AbiType, (∃ d, Registry.standard.search d = .ok t) → ∀ v : Value,
        ((∃ w, t.encode v = .ok w) ↔ t.admits v = true) ∧
        ∀ w, t.encode v = .ok w → w.length < machineMax → t.decode w = .ok v := by
  have hwf := Registry.forall_wellFormed _ hL
  refine ⟨encode_ok_iff_admits hwf hsize, fun b h => decode_of_encode hwf hsize h, ?_⟩
  rintro t ⟨d, hd⟩ v
  have ht := Registry.search_wellFormed _ hd
  exact ⟨AbiType.encode_ok_iff ht, fun w h hw => AbiType.decode_of_encode ht h (Nat.le_of_lt hw)⟩

theorem decode_encode_standard_sample :
    (∀ t ∈ [AbiType.static (.uint 256), .bytes, .dynArray (.uint 8)],
        ∃ d, Registry.standard.search d = .ok t) ∧
      (⟨[.static (.uint 256), .bytes, .dynArray (.uint 8)]⟩ : ParameterList).encodedSize
        [.uint 7, .bytes [1, 2, 3], .array [.uint 1, .uint 2]] < machineMax ∧
      (((∃ b, (⟨[.static (.uint 256), .bytes, .dynArray (.uint 8)]⟩ : ParameterList).encode
          [.uint 7, .bytes [1, 2, 3], .array [.uint 1, .uint 2]] = .ok b) ↔
        (⟨[.static (.uint 256), .bytes, .dynArray (.uint 8)]⟩ : ParameterList).admits
          [.uint 7, .bytes [1, 2, 3], .array [.uint 1, .uint 2]] = true) ∧
      (∀ b, (⟨[.static (.uint 256), .bytes, .dynArray (.uint 8)]⟩ : ParameterList).encode
          [.uint 7, .bytes [1, 2, 3], .array [.uint 1, .uint 2]] = .ok b →
        (⟨[.static (.uint 256), .bytes, .dynArray (.uint 8)]⟩ : ParameterList).decode b =
          .ok [.uint 7, .bytes [1, 2, 3], .array [.uint 1, .uint 2]] ∧ b.length % 32 = 0 ∧
        (⟨[.static (.uint 256), .bytes, .dynArray (.uint 8)]⟩ : ParameterList).headSize ≤
          b.length) ∧
      ∀ t : AbiType, (∃ d, Registry.standard.search d = .ok t) → ∀ v : Value,
        ((∃ w, t.encode v = .ok w) ↔ t.admits v = true) ∧
        ∀ w, t.encode v = .ok w → w.length < machineMax → t.decode w = .ok v) := by
  have hL : ∀ t ∈ [AbiType.static (.uint 256), .bytes, .dynArray (.uint 8)],
      ∃ d, Registry.standard.search d = .ok t := by
    intro t ht
    simp only [List.mem_cons, List.not_mem_nil, or_false] at ht
    rcases ht with rfl | rfl | rfl
    · exact ⟨"uint256", rfl⟩
    · exact ⟨"bytes", rfl⟩
    · exact ⟨"uint8[]", rfl⟩
  have hsize : (⟨[.static (.uint 256), .bytes, .dynArray (.uint 8)]⟩ : ParameterList).encodedSize
      [.uint 7, .bytes [1, 2, 3], .array [.uint 1, .uint 2]] < machineMax := by decide
  exact ⟨hL, hsize, decode_encode_standard _ hL _ hsize⟩

end ContractAbi.ParameterList
