import ContractAbi.Proofs.RoundTrip
/-!
Decoding accepts only the canonical layout. A buffer that decodes is laid out as the encoder lays
out its slices (`layout_of_decode`): the head, each offset where the payloads before it end, then
the payloads in argument order, so no offset is permuted, leaves a gap, overlaps another payload
or points into the head. Re-encoding the values gives the buffer back with the bytes decoding
does not read set to zero (`encode_of_decode`); offsets, length words and count words are read,
so they come back as they were.
-/

namespace ContractAbi.ParameterList

def headMask : List AbiType → List (List Bool) → List Bool
  | t :: ts, m :: ms => (if t.isDynamic then List.replicate 32 false else m) ++ headMask ts ms
  | _, _ => []

/-- The bytes of an encoding that decoding does not read: those of each static argument in the
head, and those of each dynamic argument's payload. -/
def ignored (L : ParameterList) (vs : List Value) : List Bool :=
  headMask L.types (List.zipWith AbiType.ignored L.types vs) ++
    tails L.types (List.zipWith AbiType.ignored L.types vs)

def Decodes : List AbiType → List Bytes → List Value → Prop
  | t :: ts, p :: ps, v :: vs => t.decode p = .ok v ∧ Decodes ts ps vs
  | [], [], [] => True
  | _, _, _ => False

theorem Fits.length_eq : ∀ {ts : List AbiType} {ps : List Bytes}, Fits ts ps → ps.length = ts.length
  | [], [], _ => rfl
  | _ :: _, _ :: _, ⟨_, h⟩ => congrArg (· + 1) h.length_eq

theorem decodes_of_mapM {data : Bytes} : ∀ {ts : List AbiType} {spans : List (Nat × Nat)}
    {vs : List Value}, spans.length = ts.length →
    (ts.zip spans).mapM (fun x => x.1.decode (slice data x.2)) = .ok vs →
    Decodes ts (spans.map (slice data)) vs
  | [], [], vs, _, h => by
    obtain rfl := Except.pure_eq_ok.1 h
    trivial
  | t :: ts, s :: spans, vs, hlen, h => by
    rw [List.zip_cons_cons, List.mapM_cons] at h
    obtain ⟨v, hv, h⟩ := Except.bind_eq_ok.1 h
    obtain ⟨vs', hvs', h⟩ := Except.bind_eq_ok.1 h
    obtain rfl := Except.pure_eq_ok.1 h
    exact ⟨hv, decodes_of_mapM (by simpa using hlen) hvs'⟩

theorem encodes_clear : ∀ {ts : List AbiType} {ps : List Bytes} {vs : List Value},
    (∀ t ∈ ts, t.WellFormed) → Decodes ts ps vs →
    Encodes ts vs (List.zipWith Bytes.clear (List.zipWith AbiType.ignored ts vs) ps) ∧
      List.Forall₂ (fun m p => m.length = p.length) (List.zipWith AbiType.ignored ts vs) ps
  | [], [], [], _, _ => ⟨trivial, .nil⟩
  | t :: ts, p :: ps, v :: vs, hwf, ⟨hp, h⟩ => by
    obtain ⟨henc, hlen⟩ := AbiType.encode_of_decode (hwf t List.mem_cons_self) hp
    obtain ⟨ih, ihlen⟩ := encodes_clear (fun t' ht' => hwf t' (List.mem_cons_of_mem t ht')) h
    exact ⟨⟨henc, ih⟩, .cons hlen ihlen⟩

section Masks

variable {ms : List (List Bool)} {ps : List Bytes}

theorem length_tails {α β : Type} {ts : List AbiType} :
    ∀ {xs : List (List α)} {ys : List (List β)},
      List.Forall₂ (fun x y => x.length = y.length) xs ys → (tails ts xs).length = (tails ts ys).length := by
  induction ts with
  | nil => intros; rfl
  | cons t ts ih =>
    rintro _ _ (_ | ⟨hxy, h⟩)
    · rfl
    · simp only [tails, List.length_append, ih h]
      split <;> simp [hxy]

theorem length_headMask {H : Nat} {ts : List AbiType} (h : List.Forall₂ (fun m p => m.length = p.length) ms ps)
    (before : Nat) : (headMask ts ms).length = (heads H ts ps before).length := by
  induction h generalizing ts before with
  | nil => cases ts <;> rfl
  | @cons m p ms ps hmp _ ih =>
    cases ts with
    | nil => rfl
    | cons t ts =>
      by_cases hd : t.isDynamic
      · simp only [headMask, heads, hd, if_true, List.length_append, List.length_replicate,
          Word.length_ofNat, ih (before + p.length)]
      · simp only [headMask, heads, hd, Bool.false_eq_true, if_false, List.length_append, hmp,
          ih before]

theorem tails_clear {ts : List AbiType} (h : List.Forall₂ (fun m p => m.length = p.length) ms ps) :
    tails ts (List.zipWith Bytes.clear ms ps) = Bytes.clear (tails ts ms) (tails ts ps) := by
  induction h generalizing ts with
  | nil => cases ts <;> rfl
  | cons hmp _ ih =>
    cases ts with
    | nil => rfl
    | cons t ts =>
      by_cases hd : t.isDynamic
      · simp only [List.zipWith_cons_cons, tails, hd, if_true]
        rw [Bytes.clear_append hmp, ih]
      · simp only [List.zipWith_cons_cons, tails, hd, Bool.false_eq_true, if_false, List.nil_append]
        exact ih

theorem heads_clear {H : Nat} {ts : List AbiType}
    (h : List.Forall₂ (fun m p => m.length = p.length) ms ps) (before : Nat) :
    heads H ts (List.zipWith Bytes.clear ms ps) before =
      Bytes.clear (headMask ts ms) (heads H ts ps before) := by
  induction h generalizing ts before with
  | nil => cases ts <;> rfl
  | @cons m p ms ps hmp _ ih =>
    cases ts with
    | nil => rfl
    | cons t ts =>
      have hclear : (Bytes.clear m p).length = p.length := by
        rw [Bytes.length_clear, hmp, Nat.min_self]
      by_cases hd : t.isDynamic
      · simp only [List.zipWith_cons_cons, heads, headMask, hd, if_true, hclear]
        rw [Bytes.clear_append (by rw [List.length_replicate, Word.length_ofNat]),
          Bytes.clear_none (Word.length_ofNat _), ih]
      · simp only [List.zipWith_cons_cons, heads, headMask, hd, Bool.false_eq_true, if_false]
        rw [Bytes.clear_append hmp, ih]

end Masks

theorem layout_of_decode {L : ParameterList} {data : Bytes} {vs : List Value}
    (hmax : data.length < machineMax) (h : L.decode data = .ok vs) :
    ∃ ps, L.headSize = (L.types.map AbiType.headSize).sum ∧ Fits L.types ps ∧
      data = heads L.headSize L.types ps 0 ++ tails L.types ps ∧ Decodes L.types ps vs := by
  obtain ⟨spans, hH, hs, hdec⟩ := decode_eq_ok h
  have hsum := headSize_eq_sum hH hmax
  obtain ⟨-, hfit, hheads, htails, -⟩ := spansFrom_eq_ok hs (by omega) le_rfl
  have hspans : spans.length = L.types.length := by
    simpa using hfit.length_eq
  refine ⟨spans.map (slice data), hsum, hfit, ?_, decodes_of_mapM hspans hdec⟩
  rw [List.drop_zero, ← hsum, Nat.sub_self] at hheads
  rw [List.take_of_length_le (by rw [List.length_drop])] at htails
  rw [← hheads, ← htails, hsum, List.take_append_drop]

section WellFormed

variable {L : ParameterList} (hwf : ∀ t ∈ L.types, t.WellFormed)
include hwf

/-- A machine-sized buffer that decodes is the encoding of its values, up to the bytes decoding
does not read. -/
theorem encode_of_decode {b : Bytes} {vs : List Value} (hb : b.length < machineMax)
    (h : L.decode b = .ok vs) :
    L.encode vs = .ok (Bytes.clear (L.ignored vs) b) ∧ (L.ignored vs).length = b.length := by
  obtain ⟨ps, hH, hfit, rfl, hdec⟩ := layout_of_decode hb h
  obtain ⟨henc, hlen⟩ := encodes_clear hwf hdec
  have hvs := henc.length_eq
  have hheads : (heads L.headSize L.types ps 0).length = _ := length_heads hfit
  have htail : (tails L.types (List.zipWith Bytes.clear (List.zipWith AbiType.ignored L.types vs) ps)).length =
      (tails L.types ps).length := by
    rw [tails_clear hlen, Bytes.length_clear, length_tails hlen, Nat.min_self]
  rw [List.length_append] at hb
  refine ⟨?_, ?_⟩
  · rw [encode, if_neg (by omega), encodeParts_eq_ok [] [] henc (by simp only [List.length_nil]; omega)]
    simp only [List.nil_append, List.length_nil, List.append_nil]
    rw [ignored, Bytes.clear_append (length_headMask hlen 0), heads_clear hlen, tails_clear hlen]
  · rw [ignored, List.length_append, List.length_append, length_headMask hlen 0, length_tails hlen]

end WellFormed

/-- Over types from the standard registry, a machine-sized buffer that decodes is the encoding of
its values up to the bytes decoding does not read; so is a buffer that one such type decodes. -/
theorem decode_only_canonical_standard (L : ParameterList)
    (hL : ∀ t ∈ L.types, ∃ d, Registry.standard.search d = .ok t) (b : Bytes)
    (hb : b.length < machineMax) (vs : List Value) (h : L.decode b = .ok vs) :
    (L.encode vs = .ok (Bytes.clear (L.ignored vs) b) ∧ (L.ignored vs).length = b.length) ∧
      ∀ t : AbiType, (∃ d, Registry.standard.search d = .ok t) → ∀ (w : Bytes) (v : Value),
        t.decode w = .ok v →
          t.encode v = .ok (Bytes.clear (t.ignored v) w) ∧ (t.ignored v).length = w.length := by
  have hwf := Registry.forall_wellFormed _ hL
  refine ⟨encode_of_decode hwf hb h, ?_⟩
  rintro t ⟨d, hd⟩ w v hw
  exact AbiType.encode_of_decode (Registry.search_wellFormed _ hd) hw

set_option maxRecDepth 8000 in
theorem decode_only_canonical_standard_sample :
    (∀ t ∈ [AbiType.static .address, .bytes], ∃ d, Registry.standard.search d = .ok t) ∧
      (List.replicate 12 0xff ++ List.replicate 20 0x11 ++ (List.replicate 31 0 ++ [64]) ++
        (List.replicate 31 0 ++ [3]) ++ ([1, 2, 3] ++ List.replicate 29 0xee) : Bytes).length <
          machineMax ∧
      (⟨[.static .address, .bytes]⟩ : ParameterList).decode
          (List.replicate 12 0xff ++ List.replicate 20 0x11 ++ (List.replicate 31 0 ++ [64]) ++
            (List.replicate 31 0 ++ [3]) ++ ([1, 2, 3] ++ List.replicate 29 0xee)) =
        .ok [.address ⟨List.replicate 20 0x11, rfl⟩, .bytes [1, 2, 3]] ∧
      (⟨[.static .address, .bytes]⟩ : ParameterList).encode
          [.address ⟨List.replicate 20 0x11, rfl⟩, .bytes [1, 2, 3]] =
        .ok (Bytes.clear
          ((⟨[.static .address, .bytes]⟩ : ParameterList).ignored
            [.address ⟨List.replicate 20 0x11, rfl⟩, .bytes [1, 2, 3]])
          (List.replicate 12 0xff ++ List.replicate 20 0x11 ++ (List.replicate 31 0 ++ [64]) ++
            (List.replicate 31 0 ++ [3]) ++ ([1, 2, 3] ++ List.replicate 29 0xee))) := by
  have hL : ∀ t ∈ [AbiType.static .address, .bytes], ∃ d, Registry.standard.search d = .ok t := by
    intro t ht
    simp only [List.mem_cons, List.not_mem_nil, or_false] at ht
    rcases ht with rfl | rfl
    · exact ⟨"address", rfl⟩
    · exact ⟨"bytes", rfl⟩
  have hb : (List.replicate 12 0xff ++ List.replicate 20 0x11 ++ (List.replicate 31 0 ++ [64]) ++
      (List.replicate 31 0 ++ [3]) ++ ([1, 2, 3] ++ List.replicate 29 0xee) : Bytes).length <
        machineMax := by
    simp [machineMax_eq]
  have h : (⟨[.static .address, .bytes]⟩ : ParameterList).decode
      (List.replicate 12 0xff ++ List.replicate 20 0x11 ++ (List.replicate 31 0 ++ [64]) ++
        (List.replicate 31 0 ++ [3]) ++ ([1, 2, 3] ++ List.replicate 29 0xee)) =
      .ok [.address ⟨List.replicate 20 0x11, rfl⟩, .bytes [1, 2, 3]] := by
    rfl
  exact ⟨hL, hb, h, (decode_only_canonical_standard _ hL _ hb _ h).1.1⟩

end ContractAbi.ParameterList
