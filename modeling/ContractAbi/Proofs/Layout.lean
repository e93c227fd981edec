import ContractAbi.Proofs.ValueCodec
/-!
The head/tail layout of an argument list. `heads` writes, argument by argument, a static
argument's encoding or a dynamic argument's offset: the head length plus the payloads before
it. `tails` writes the payloads of the dynamic arguments in order. Encoding builds exactly this
layout (`encodeParts_eq_ok`). On a laid-out buffer the decoder's scan over the offsets finds the
parts (`spansFrom_layout`); and on every buffer it accepts, the scan reads such a layout of the
slices it returns (`spansFrom_eq_ok`), each offset where the payloads before it end.
-/

namespace ContractAbi.ParameterList

/-- The head of arguments of types `ts` with encodings `ps`, for a head of `H` bytes and `before`
bytes of payloads ahead of theirs. -/
def heads (H : Nat) : List AbiType → List Bytes → Nat → Bytes
  | t :: ts, p :: ps, before =>
    if t.isDynamic then Word.ofNat (H + before) ++ heads H ts ps (before + p.length)
    else p ++ heads H ts ps before
  | _, _, _ => []

def tails {α : Type} : List AbiType → List (List α) → List α
  | t :: ts, p :: ps => (if t.isDynamic then p else []) ++ tails ts ps
  | _, _ => []

/-- Encodings that fit their arguments' head slots: a static one fills its slot, a dynamic one
is not empty. -/
def Fits : List AbiType → List Bytes → Prop
  | t :: ts, p :: ps => (if t.isDynamic then 0 < p.length else p.length = t.headSize) ∧ Fits ts ps
  | [], [] => True
  | _, _ => False

def Encodes : List AbiType → List Value → List Bytes → Prop
  | t :: ts, v :: vs, p :: ps => t.encode v = .ok p ∧ Encodes ts vs ps
  | [], [], [] => True
  | _, _, _ => False

theorem headSize_foldl (ts : List AbiType) {acc : Nat} (h : acc ≤ machineMax) :
    ts.foldl (fun acc t => min machineMax (acc + t.headSize)) acc =
      min machineMax (acc + (ts.map AbiType.headSize).sum) := by
  induction ts generalizing acc with
  | nil => simp [Nat.min_eq_right h]
  | cons t ts ih =>
    rw [List.foldl_cons, ih (Nat.min_le_left _ _), List.map_cons, List.sum_cons]
    omega

theorem headSize_eq_min (L : ParameterList) :
    L.headSize = min machineMax (L.types.map AbiType.headSize).sum := by
  rw [headSize, headSize_foldl _ (Nat.zero_le _), Nat.zero_add]

theorem headSize_eq_sum {L : ParameterList} {n : Nat} (h : L.headSize ≤ n) (hn : n < machineMax) :
    L.headSize = (L.types.map AbiType.headSize).sum := by
  rw [headSize_eq_min] at h ⊢
  omega

theorem length_heads {H : Nat} : ∀ {ts : List AbiType} {ps : List Bytes} {before : Nat},
    Fits ts ps → (heads H ts ps before).length = (ts.map AbiType.headSize).sum
  | t :: ts, p :: ps, before, ⟨hp, hfit⟩ => by
    by_cases hd : t.isDynamic
    · have h32 : t.headSize = 32 := by cases t <;> simp_all [AbiType.isDynamic, AbiType.headSize]
      simp only [heads, hd, if_true, List.length_append, Word.length_ofNat, length_heads hfit,
        List.map_cons, List.sum_cons, h32]
    · simp only [hd, Bool.false_eq_true, if_false] at hp
      simp only [heads, hd, Bool.false_eq_true, if_false, List.length_append, hp,
        length_heads hfit, List.map_cons, List.sum_cons]
  | [], [], _, _ => rfl

theorem encodeParts_eq_ok {H : Nat} : ∀ {ts : List AbiType} {vs : List Value} {ps : List Bytes}
    (head tail : Bytes), Encodes ts vs ps → H + tail.length + (tails ts ps).length ≤ machineMax →
    encodeParts H ts vs head tail = .ok (head ++ heads H ts ps tail.length ++ tail ++ tails ts ps)
  | [], [], [], head, tail, _, _ => by simp [encodeParts, heads, tails]
  | t :: ts, v :: vs, p :: ps, head, tail, ⟨hp, henc⟩, hmax => by
    cases t with
    | static s =>
      have hrest : H + tail.length + (tails ts ps).length ≤ machineMax := by
        simpa [tails, AbiType.isDynamic] using hmax
      have ih := encodeParts_eq_ok (H := H) (head ++ p) tail henc hrest
      simp only [encodeParts, AbiType.encode] at hp ⊢
      rw [hp]
      change encodeParts H ts vs (head ++ p) tail = _
      rw [ih]
      simp [heads, tails, AbiType.isDynamic]
    | _ =>
      simp only [tails, AbiType.isDynamic, if_true, List.length_append] at hmax
      have ih := encodeParts_eq_ok (H := H) (head ++ Word.ofNat (H + tail.length)) (tail ++ p)
        henc (by rw [List.length_append]; omega)
      simp only [encodeParts]
      rw [if_neg (by omega), hp]
      change encodeParts H ts vs _ (tail ++ p) = _
      rw [ih]
      simp [heads, tails, AbiType.isDynamic]

theorem encodes_of_encodeParts {H : Nat} : ∀ {ts : List AbiType} {vs : List Value}
    {head tail b : Bytes}, vs.length = ts.length → encodeParts H ts vs head tail = .ok b →
    ∃ ps, Encodes ts vs ps
  | [], [], _, _, _, _, _ => ⟨[], trivial⟩
  | t :: ts, v :: vs, head, tail, b, hlen, h => by
    have hlen' : vs.length = ts.length := by simpa using hlen
    -- the encoding of `v`, whichever branch wrote it, and the rest from the recursive call
    have hstep : ∃ p, t.encode v = .ok p ∧ ∃ head' tail', encodeParts H ts vs head' tail' = .ok b := by
      cases t with
      | static s =>
        obtain ⟨p, hp, hrest⟩ := Except.bind_eq_ok.1 h
        exact ⟨p, hp, _, _, hrest⟩
      | _ =>
        simp only [encodeParts] at h
        split at h
        · exact absurd h (by simp [throw, throwThe, MonadExceptOf.throw, bind, Except.bind])
        · obtain ⟨p, hp, hrest⟩ := Except.bind_eq_ok.1 h
          exact ⟨p, hp, _, _, hrest⟩
    obtain ⟨p, hp, head', tail', hrest⟩ := hstep
    obtain ⟨ps, hps⟩ := encodes_of_encodeParts hlen' hrest
    exact ⟨p :: ps, hp, hps⟩

theorem take_word_append {x : Nat} {rest : Bytes} : (Word.ofNat x ++ rest).take wordSize = Word.ofNat x := by
  rw [wordSize_eq, List.take_left' (Word.length_ofNat x)]

theorem spansFrom_cons_of_ok {data : Bytes} {H pos : Nat} {t : AbiType} {ts : List AbiType}
    {upper : Nat} {spans : List (Nat × Nat)} {next : Nat}
    (h : spansFrom data H (pos + t.headSize) ts upper = .ok (spans, next)) :
    spansFrom data H pos (t :: ts) upper =
      if t.isDynamic then
        if Word.toNat ((data.drop pos).take wordSize) > machineMax ∨
            Word.toNat ((data.drop pos).take wordSize) < H ∨
            Word.toNat ((data.drop pos).take wordSize) ≥ next then
          .error (.invalidOffset (Word.toNat ((data.drop pos).take wordSize)) H next)
        else .ok ((Word.toNat ((data.drop pos).take wordSize), next) :: spans,
          Word.toNat ((data.drop pos).take wordSize))
      else .ok ((pos, pos + t.headSize) :: spans, next) := by
  rw [spansFrom, h]
  rfl

theorem headSize_of_isDynamic {t : AbiType} (h : t.isDynamic = true) : t.headSize = 32 := by
  cases t <;> simp_all [AbiType.isDynamic, AbiType.headSize]

def slice (data : Bytes) (s : Nat × Nat) : Bytes :=
  (data.drop s.1).take (s.2 - s.1)

theorem spansFrom_layout {data : Bytes} {H : Nat} (hmax : data.length ≤ machineMax) :
    ∀ {ts : List AbiType} {ps : List Bytes} {pos before : Nat}, Fits ts ps →
      heads H ts ps before <+: data.drop pos →
      data.drop (H + before) = tails ts ps → H + before ≤ data.length →
      ∃ spans, spansFrom data H pos ts data.length = .ok (spans, H + before) ∧
        spans.map (slice data) = ps
  | [], [], pos, before, _, _, htail, hle => by
    have : data.length ≤ H + before := by simpa [tails] using htail
    exact ⟨[], by rw [spansFrom]; congr; omega, rfl⟩
  | t :: ts, p :: ps, pos, before, ⟨hp, hfit⟩, ⟨rest, hhead⟩, htail, hle => by
    by_cases hd : t.isDynamic
    · simp only [hd, if_true] at hp
      simp only [heads, hd, if_true, List.append_assoc] at hhead
      simp only [tails, hd, if_true] at htail
      -- the later arguments sit after the offset word, their payloads after this one
      have hhead' : heads H ts ps (before + p.length) <+: data.drop (pos + t.headSize) := by
        rw [headSize_of_isDynamic hd, ← List.drop_drop, ← hhead,
          List.drop_left' (Word.length_ofNat _)]
        exact List.prefix_append _ _
      have htail' : data.drop (H + (before + p.length)) = tails ts ps := by
        rw [← Nat.add_assoc, ← List.drop_drop, htail, List.drop_left]
      have hle' : H + (before + p.length) ≤ data.length := by
        have := congrArg List.length htail
        simp only [List.length_drop, List.length_append] at this
        omega
      obtain ⟨spans, hspans, hmap⟩ := spansFrom_layout hmax hfit hhead' htail' hle'
      have hword : Word.toNat ((data.drop pos).take wordSize) = H + before := by
        rw [← hhead, take_word_append, Word.toNat_ofNat_of_le_machineMax (by omega)]
      refine ⟨(H + before, H + (before + p.length)) :: spans, ?_, ?_⟩
      · rw [spansFrom_cons_of_ok hspans, if_pos hd, hword, if_neg (by omega)]
      · simp only [List.map_cons, hmap, List.cons.injEq, and_true, slice]
        rw [htail, show H + (before + p.length) - (H + before) = p.length by omega, List.take_left]
    · simp only [hd, Bool.false_eq_true, if_false] at hp
      simp only [heads, hd, Bool.false_eq_true, if_false, List.append_assoc] at hhead
      simp only [tails, hd, Bool.false_eq_true, if_false, List.nil_append] at htail
      have hhead' : heads H ts ps before <+: data.drop (pos + t.headSize) := by
        rw [← hp, ← List.drop_drop, ← hhead, List.drop_left]
        exact List.prefix_append _ _
      obtain ⟨spans, hspans, hmap⟩ := spansFrom_layout hmax hfit hhead' htail hle
      refine ⟨(pos, pos + t.headSize) :: spans, ?_, ?_⟩
      · rw [spansFrom_cons_of_ok hspans, if_neg hd]
      · simp only [List.map_cons, hmap, List.cons.injEq, and_true, slice]
        rw [← hhead, Nat.add_sub_cancel_left, ← hp, List.take_left]

theorem length_slice {data : Bytes} {s : Nat × Nat} (h : s.2 ≤ data.length) :
    (slice data s).length = s.2 - s.1 := by
  simp only [slice, List.length_take, List.length_drop]
  omega

theorem take_drop_split {data : Bytes} {lo mid upper : Nat} (h1 : lo ≤ mid) (h2 : mid ≤ upper) :
    (data.drop lo).take (upper - lo) =
      slice data (lo, mid) ++ (data.drop mid).take (upper - mid) := by
  rw [show upper - lo = (mid - lo) + (upper - mid) by omega, List.take_add, List.drop_drop,
    show lo + (mid - lo) = mid by omega]
  rfl

/-- What the scan accepts, from the head slot at `pos` on: a head of static parts and offsets,
then from the first offset up to `upper` the payloads, each offset where the payloads before it
end; every range lies inside the buffer. -/
theorem spansFrom_eq_ok {data : Bytes} {H : Nat} :
    ∀ {ts : List AbiType} {pos upper : Nat} {spans : List (Nat × Nat)} {first : Nat},
      spansFrom data H pos ts upper = .ok (spans, first) →
      pos + (ts.map AbiType.headSize).sum ≤ data.length → upper ≤ data.length →
      first ≤ upper ∧ Fits ts (spans.map (slice data)) ∧
        (data.drop pos).take (ts.map AbiType.headSize).sum =
          heads H ts (spans.map (slice data)) (first - H) ∧
        (data.drop first).take (upper - first) = tails ts (spans.map (slice data)) ∧
        ∀ s ∈ spans, s.1 ≤ s.2 ∧ s.2 ≤ data.length
  | [], pos, upper, spans, first, h, _, _ => by
    simp only [spansFrom, Except.ok.injEq, Prod.mk.injEq] at h
    obtain ⟨rfl, rfl⟩ := h
    simp [Fits, heads, tails]
  | t :: ts, pos, upper, spans, first, h, hpos, hupper => by
    obtain ⟨⟨spans', next⟩, hrec, -⟩ := Except.bind_eq_ok.1 h
    rw [spansFrom_cons_of_ok hrec] at h
    simp only [List.map_cons, List.sum_cons] at hpos ⊢
    obtain ⟨hnext, hfit, hheads, htails, hbounds⟩ := spansFrom_eq_ok hrec (by omega) hupper
    by_cases hd : t.isDynamic
    · rw [if_pos hd] at h
      split_ifs at h with hbad
      obtain ⟨rfl, rfl⟩ := Prod.mk.inj (Except.ok.inj h)
      simp only [List.map_cons]
      set off := Word.toNat ((data.drop pos).take wordSize) with hoff
      have h32 := headSize_of_isDynamic hd
      -- the offset word is the word of the offset it holds
      have hword : (data.drop pos).take 32 = Word.ofNat off := by
        rw [hoff, wordSize_eq, Word.ofNat_toNat (List.length_take_of_le (by simp; omega))]
      have hlen : (slice data (off, next)).length = next - off := length_slice (by simp; omega)
      refine ⟨by omega, ⟨?_, hfit⟩, ?_, ?_, ?_⟩
      · rw [if_pos hd, hlen]
        omega
      · rw [h32, List.take_add, hword, List.drop_drop, ← h32, hheads]
        simp only [heads, hd, if_true, hlen]
        congr 3 <;> omega
      · rw [take_drop_split (by omega) hnext, htails]
        simp only [tails, hd, if_true]
      · simp only [List.mem_cons, forall_eq_or_imp]
        exact ⟨⟨by omega, by omega⟩, hbounds⟩
    · rw [if_neg hd] at h
      obtain ⟨rfl, rfl⟩ := Prod.mk.inj (Except.ok.inj h)
      simp only [List.map_cons]
      have hslice : slice data (pos, pos + t.headSize) = (data.drop pos).take t.headSize := by
        simp only [slice, Nat.add_sub_cancel_left]
      refine ⟨hnext, ⟨?_, hfit⟩, ?_, ?_, ?_⟩
      · rw [if_neg hd, length_slice (by simp; omega), Nat.add_sub_cancel_left]
      · rw [List.take_add, List.drop_drop, hheads, hslice]
        simp only [heads, hd, Bool.false_eq_true, if_false]
      · rw [htails]
        simp only [tails, hd, Bool.false_eq_true, if_false, List.nil_append]
      · simp only [List.mem_cons, forall_eq_or_imp]
        exact ⟨⟨by omega, by omega⟩, hbounds⟩

theorem length_slice_le (data : Bytes) (s : Nat × Nat) : (slice data s).length ≤ data.length := by
  simp only [slice, List.length_take, List.length_drop]
  omega

theorem decode_of_spansFrom {L : ParameterList} {data : Bytes} {spans : List (Nat × Nat)}
    (hlen : L.headSize ≤ data.length)
    (hs : spansFrom data L.headSize 0 L.types data.length = .ok (spans, L.headSize)) :
    L.decode data = (L.types.zip spans).mapM fun x => x.1.decode (slice data x.2) := by
  simp only [decode]
  rw [if_neg (by omega), hs]
  simp only [bind, Except.bind, ne_eq, not_true_eq_false, if_false]
  rfl

/-- What decoding accepts: a buffer at least as long as the head, whose scan ends where the
head does, and whose arguments' slices decode. -/
theorem decode_eq_ok {L : ParameterList} {data : Bytes} {vs : List Value}
    (h : L.decode data = .ok vs) :
    ∃ spans, L.headSize ≤ data.length ∧
      spansFrom data L.headSize 0 L.types data.length = .ok (spans, L.headSize) ∧
      (L.types.zip spans).mapM (fun x => x.1.decode (slice data x.2)) = .ok vs := by
  simp only [decode] at h
  split_ifs at h with hshort
  · exact absurd h Except.throw_ne_ok
  obtain ⟨⟨spans, first⟩, hs, hrest⟩ := Except.bind_eq_ok.1 h
  split_ifs at hrest with hfirst
  · exact absurd hrest Except.throw_ne_ok
  have hfirst' : first = L.headSize := by omega
  subst hfirst'
  exact ⟨spans, by omega, hs, hrest⟩

end ContractAbi.ParameterList
