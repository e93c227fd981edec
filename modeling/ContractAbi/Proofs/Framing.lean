import ContractAbi.Proofs.Canonical
import Mathlib.Tactic.Ring
/-!
Framing: how many bytes an encoding takes is fixed by the words decoding reads. One value takes
its type's fixed size, or a length or count word and what that word announces
(`AbiType.length_of_decode`). So a buffer that decodes has no proper extension that decodes,
for one type and for an argument list (`decode_language_prefix_free`). In an argument list the
same words pin every offset: the first payload starts where the head ends and each later one
where the one before it ends, so two buffers that decode and differ at most in their offset
words are equal (`offset_words_forced`).
-/

namespace ContractAbi

theorem Bytes.toNat_append_mul (as bs : Bytes) :
    toNat (as ++ bs) = toNat as * 256 ^ bs.length + toNat bs := by
  induction bs using List.reverseRecOn with
  | nil => simp [toNat]
  | append_singleton bs b ih =>
    rw [← List.append_assoc, toNat_append_byte, toNat_append_byte, ih, List.length_append,
      List.length_singleton, pow_succ]
    ring

theorem StaticType.length_of_decode {t : StaticType} {w : Bytes} {v : Value}
    (h : t.decode w = .ok v) : w.length = t.fixedSize := by
  cases t with
  | array e k =>
    obtain ⟨u, hlen, -⟩ := Except.bind_eq_ok.1 h
    exact Codec.expectLen_eq_ok.1 hlen
  | _ =>
    rw [StaticType.decode_scalar (fun _ _ h => by cases h)] at h
    obtain ⟨u, hlen, -⟩ := Except.bind_eq_ok.1 h
    exact Codec.expectLen_eq_ok.1 hlen

namespace AbiType

/-- The length of an encoding whose first word is `w`: a static type's fixed size; for a dynamic
type, the length or count word and the bytes it announces. -/
def frameLength : AbiType → Bytes → Nat
  | .static t, _ => t.fixedSize
  | .bytes, w | .string, w => 32 + (Word.toNat w + 31) / 32 * 32
  | .dynArray e, w => 32 + Word.toNat w * e.fixedSize

theorem length_of_decode {t : AbiType} {data : Bytes} {v : Value} (h : t.decode data = .ok v) :
    data.length = t.frameLength (data.take 32) ∧ (t.isDynamic = true → 32 ≤ data.length) := by
  cases t with
  | static s => exact ⟨StaticType.length_of_decode h, fun h => by simp [isDynamic] at h⟩
  | bytes =>
    obtain ⟨bs, hbs, -⟩ := Except.map_eq_ok.1 h
    obtain ⟨h32, hword, -, hlen, -⟩ := Codec.decodePadded_eq_ok hbs
    exact ⟨by rw [frameLength, hword, hlen], fun _ => h32⟩
  | string =>
    obtain ⟨bs, hbs, -⟩ := Except.bind_eq_ok.1 h
    obtain ⟨h32, hword, -, hlen, -⟩ := Codec.decodePadded_eq_ok hbs
    exact ⟨by rw [frameLength, hword, hlen], fun _ => h32⟩
  | dynArray e =>
    obtain ⟨count, hread, hrest⟩ := Except.bind_eq_ok.1 h
    obtain ⟨payload, hpay, hrest⟩ := Except.bind_eq_ok.1 hrest
    obtain ⟨h32, hword, -⟩ := Codec.readLength_eq_ok.1 hread
    obtain ⟨rfl, -⟩ := StaticType.payloadLen_eq_ok.1 hpay
    simp only [wordSize_eq] at hrest
    by_cases hne : data.length - 32 = count * e.fixedSize
    · exact ⟨by rw [frameLength, hword]; omega, fun _ => h32⟩
    · simp [hne, throw, throwThe, MonadExceptOf.throw, bind, Except.bind] at hrest

theorem eq_nil_of_decode_append {t : AbiType} {p s : Bytes} {v v' : Value}
    (h : t.decode p = .ok v) (h' : t.decode (p ++ s) = .ok v') : s = [] := by
  obtain ⟨hp, h32⟩ := length_of_decode h
  obtain ⟨hps, -⟩ := length_of_decode h'
  -- both buffers open with the same word, so they announce the same length
  have hword : t.frameLength ((p ++ s).take 32) = t.frameLength (p.take 32) := by
    cases t with
    | static => rfl
    | _ => rw [List.take_append_of_le_length (h32 rfl)]
  rw [List.length_append, hword, ← hp] at hps
  exact List.eq_nil_of_length_eq_zero (by omega)

end AbiType

namespace ParameterList

def wordAt (data : Bytes) (pos : Nat) : Nat := Word.toNat ((data.drop pos).take wordSize)

theorem take_drop_eq_iff {D D' : Bytes} {o n : Nat} :
    (D.drop o).take n = (D'.drop o).take n ↔ ∀ i, o ≤ i → i < o + n → D[i]? = D'[i]? := by
  constructor
  · intro h i hlo hhi
    have hi := congrArg (·[i - o]?) h
    simp only [List.getElem?_take, List.getElem?_drop, if_pos (show i - o < n by omega),
      Nat.add_sub_cancel' hlo] at hi
    exact hi
  · intro h
    apply List.ext_getElem?
    intro j
    simp only [List.getElem?_take, List.getElem?_drop]
    split_ifs with hj
    · exact h (o + j) (by omega) (by omega)
    · rfl

theorem take_drop_eq_of_wordAt {D D' : Bytes} (hlen : D.length = D'.length) {pos : Nat}
    (h : wordAt D pos = wordAt D' pos) : (D.drop pos).take 32 = (D'.drop pos).take 32 := by
  have hw : ((D.drop pos).take 32).length = ((D'.drop pos).take 32).length := by
    simp [hlen]
  rw [← Bytes.ofNat_toNat ((D.drop pos).take 32), ← Bytes.ofNat_toNat ((D'.drop pos).take 32), hw]
  exact congrArg _ h

theorem wordAt_append_of_le {b s : Bytes} {pos : Nat} (h : pos + 32 ≤ b.length) :
    wordAt (b ++ s) pos = wordAt b pos := by
  rw [wordAt, wordAt, List.drop_append_of_le_length (by omega), wordSize_eq,
    List.take_append_of_le_length (by simp; omega)]

theorem wordAt_append_of_lt {b s : Bytes} {pos : Nat} (hs : s ≠ []) (h : b.length < pos + 32) :
    wordAt b pos * 256 ≤ wordAt (b ++ s) pos := by
  by_cases hpos : b.length ≤ pos
  · rw [wordAt, List.drop_eq_nil_of_le hpos]
    simp [Word.toNat, Bytes.toNat]
  have hrest : (b.drop pos).take wordSize = b.drop pos :=
    List.take_of_length_le (by simp; omega)
  have hx : 0 < (s.take (32 - (b.drop pos).length)).length := by
    have := List.length_pos_of_ne_nil hs
    simp only [List.length_take, List.length_drop]
    omega
  rw [wordAt, wordAt, hrest, List.drop_append_of_le_length (by omega), wordSize_eq,
    List.take_append, List.take_of_length_le (by simp; omega), Word.toNat, Word.toNat,
    Bytes.toNat_append_mul]
  have hpow : 256 ≤ 256 ^ (s.take (32 - (b.drop pos).length)).length :=
    Nat.le_self_pow (by omega) 256
  nlinarith [Nat.zero_le (Bytes.toNat (b.drop pos))]

theorem spansFrom_cons_eq_ok {data : Bytes} {H pos upper first : Nat} {t : AbiType}
    {ts : List AbiType} {spans : List (Nat × Nat)}
    (h : spansFrom data H pos (t :: ts) upper = .ok (spans, first)) :
    ∃ spans' next, spansFrom data H (pos + t.headSize) ts upper = .ok (spans', next) ∧
      ((t.isDynamic = true ∧ H ≤ wordAt data pos ∧ wordAt data pos ≤ machineMax ∧
          wordAt data pos < next ∧ spans = (wordAt data pos, next) :: spans' ∧
          first = wordAt data pos) ∨
        (t.isDynamic = false ∧ spans = (pos, pos + t.headSize) :: spans' ∧ first = next)) := by
  obtain ⟨⟨spans', next⟩, hrec, -⟩ := Except.bind_eq_ok.1 h
  rw [spansFrom_cons_of_ok hrec] at h
  refine ⟨spans', next, hrec, ?_⟩
  by_cases hd : t.isDynamic
  · rw [if_pos hd] at h
    split_ifs at h with hbad
    obtain ⟨rfl, rfl⟩ := Prod.mk.inj (Except.ok.inj h)
    change ¬(wordAt data pos > machineMax ∨ wordAt data pos < H ∨ wordAt data pos ≥ next) at hbad
    exact .inl ⟨hd, by omega, by omega, by omega, rfl, rfl⟩
  · rw [if_neg hd] at h
    obtain ⟨rfl, rfl⟩ := Prod.mk.inj (Except.ok.inj h)
    exact .inr ⟨by simpa using hd, rfl, rfl⟩

theorem first_of_spansFrom {data : Bytes} {H : Nat} :
    ∀ {ts : List AbiType} {pos upper : Nat} {spans : List (Nat × Nat)} {first : Nat},
      spansFrom data H pos ts upper = .ok (spans, first) →
      if ts.any AbiType.isDynamic then H ≤ first ∧ first ≤ machineMax ∧ first < upper
      else first = upper
  | [], pos, upper, spans, first, h => by
    simp only [spansFrom, Except.ok.injEq, Prod.mk.injEq] at h
    simp [h.2]
  | t :: ts, pos, upper, spans, first, h => by
    obtain ⟨spans', next, hrec, ⟨hd, hlo, hhi, hlt, -, rfl⟩ | ⟨hd, -, rfl⟩⟩ :=
      spansFrom_cons_eq_ok h
    · have ih := first_of_spansFrom hrec
      have hnext : next ≤ upper := by split_ifs at ih <;> omega
      simp only [List.any_cons, hd, Bool.true_or, if_true]
      omega
    · simpa [hd] using first_of_spansFrom hrec

def offsetSlotsFrom : Nat → List AbiType → List Nat
  | _, [] => []
  | pos, t :: ts => (if t.isDynamic then [pos] else []) ++ offsetSlotsFrom (pos + t.headSize) ts

/-- Where the offset words stand in the head: the head slots of the dynamic arguments. -/
def offsetSlots (L : ParameterList) : List Nat := offsetSlotsFrom 0 L.types

def InOffsetSlot (L : ParameterList) (i : Nat) : Prop :=
  ∃ p ∈ L.offsetSlots, p ≤ i ∧ i < p + 32

theorem offsetSlotsFrom_le : ∀ {ts : List AbiType} {pos p : Nat}, p ∈ offsetSlotsFrom pos ts →
    pos ≤ p ∧ p + 32 ≤ pos + (ts.map AbiType.headSize).sum
  | [], _, _, h => by simp [offsetSlotsFrom] at h
  | t :: ts, pos, p, h => by
    simp only [offsetSlotsFrom, List.mem_append] at h
    simp only [List.map_cons, List.sum_cons]
    rcases h with h | h
    · by_cases hd : t.isDynamic
      · simp only [hd, if_true, List.mem_singleton] at h
        have := headSize_of_isDynamic hd
        omega
      · simp [hd] at h
    · have := offsetSlotsFrom_le h
      omega

theorem head_fits (L : ParameterList) :
    0 + (L.types.map AbiType.headSize).sum ≤ L.headSize ∨ L.headSize = machineMax := by
  rw [headSize_eq_min]
  omega

theorem end_of_decode_slice {t : AbiType} (hd : t.isDynamic = true) {D : Bytes} {lo hi : Nat}
    (hhi : hi ≤ D.length) {v : Value} (h : t.decode (slice D (lo, hi)) = .ok v) :
    lo + 32 ≤ hi ∧ hi = lo + t.frameLength ((D.drop lo).take 32) := by
  obtain ⟨hlen, h32⟩ := AbiType.length_of_decode h
  have hslice : (slice D (lo, hi)).length = hi - lo := length_slice hhi
  have h32' := h32 hd
  rw [hslice] at h32'
  have htake : (slice D (lo, hi)).take 32 = (D.drop lo).take 32 := by
    rw [slice, List.take_take, Nat.min_eq_left (by omega)]
  rw [htake, hslice] at hlen
  omega

section Extension

variable {b s : Bytes} {H : Nat}

/-- Scanning `b` and `b ++ s` for a non-empty `s`, each up to its own end: where both scans
succeed and every slice decodes, no argument is dynamic. A last dynamic argument would take the
bytes from its offset to the end in both buffers, which its first word cannot allow. -/
theorem spansFrom_append_static (hs : s ≠ []) (hH : H ≤ b.length) :
    ∀ {ts : List AbiType} {pos : Nat} {sp₁ sp₂ : List (Nat × Nat)} {f₁ f₂ : Nat},
      pos + (ts.map AbiType.headSize).sum ≤ H ∨ H = machineMax →
      spansFrom b H pos ts b.length = .ok (sp₁, f₁) →
      spansFrom (b ++ s) H pos ts (b ++ s).length = .ok (sp₂, f₂) →
      (∀ x ∈ ts.zip sp₁, ∃ v, x.1.decode (slice b x.2) = .ok v) →
      (∀ x ∈ ts.zip sp₂, ∃ v, x.1.decode (slice (b ++ s) x.2) = .ok v) →
      ts.any AbiType.isDynamic = false
  | [], _, _, _, _, _, _, _, _, _, _ => rfl
  | t :: ts, pos, sp₁, sp₂, f₁, f₂, hfit, h₁, h₂, hdec₁, hdec₂ => by
    simp only [List.map_cons, List.sum_cons] at hfit
    obtain ⟨sp₁', n₁, hrec₁, ⟨hd, hlo₁, hhi₁, hlt₁, rfl, rfl⟩ | ⟨hd, rfl, rfl⟩⟩ :=
      spansFrom_cons_eq_ok h₁
    · exfalso
      obtain ⟨sp₂', n₂, hrec₂, ⟨-, hlo₂, hhi₂, hlt₂, rfl, rfl⟩ | ⟨hd', -⟩⟩ :=
        spansFrom_cons_eq_ok h₂
      · -- the later arguments are all static, so this payload runs to the end of each buffer
        have hrest := spansFrom_append_static hs hH (by omega) hrec₁ hrec₂
          (fun x hx => hdec₁ x (List.mem_cons_of_mem _ hx))
          (fun x hx => hdec₂ x (List.mem_cons_of_mem _ hx))
        have hn₁ := first_of_spansFrom hrec₁
        have hn₂ := first_of_spansFrom hrec₂
        simp only [hrest, Bool.false_eq_true, if_false] at hn₁ hn₂
        subst hn₁ hn₂
        obtain ⟨v₁, hv₁⟩ : ∃ v, t.decode (slice b (wordAt b pos, b.length)) = .ok v :=
          hdec₁ _ List.mem_cons_self
        obtain ⟨v₂, hv₂⟩ : ∃ v, t.decode
            (slice (b ++ s) (wordAt (b ++ s) pos, (b ++ s).length)) = .ok v :=
          hdec₂ _ List.mem_cons_self
        have h32 := headSize_of_isDynamic hd
        by_cases hin : pos + 32 ≤ b.length
        · -- the offset word lies inside `b`: both payloads start at one offset
          rw [wordAt_append_of_le hin] at hv₂ hlt₂
          rw [slice, List.take_of_length_le (by simp)] at hv₁ hv₂
          rw [List.drop_append_of_le_length (by omega)] at hv₂
          exact hs (AbiType.eq_nil_of_decode_append hv₁ hv₂)
        · -- the word runs past the end of `b`, so the head saturated and the offset is the
          -- largest one; read on into `s` it is too large
          have hmax : H = machineMax := by omega
          have hgrow : wordAt b pos * 256 ≤ wordAt (b ++ s) pos :=
            wordAt_append_of_lt hs (by omega)
          rw [machineMax_eq] at hmax
          omega
      · simp [hd] at hd'
    · obtain ⟨sp₂', n₂, hrec₂, ⟨hd', -⟩ | ⟨-, rfl, rfl⟩⟩ := spansFrom_cons_eq_ok h₂
      · simp [hd] at hd'
      have hrest := spansFrom_append_static hs hH (by omega) hrec₁ hrec₂
        (fun x hx => hdec₁ x (List.mem_cons_of_mem _ hx))
        (fun x hx => hdec₂ x (List.mem_cons_of_mem _ hx))
      simp [hd, hrest]

theorem eq_nil_of_decode_append {L : ParameterList} {vs vs' : List Value}
    (h : L.decode b = .ok vs) (h' : L.decode (b ++ s) = .ok vs') : s = [] := by
  by_contra hs
  obtain ⟨sp₁, hH, hsp₁, hdec₁⟩ := decode_eq_ok h
  obtain ⟨sp₂, -, hsp₂, hdec₂⟩ := decode_eq_ok h'
  have hstatic := spansFrom_append_static hs hH (head_fits L) hsp₁ hsp₂
    (Except.forall_of_mapM_eq_ok hdec₁) (Except.forall_of_mapM_eq_ok hdec₂)
  -- with no dynamic argument each scan ends at its own buffer's end, and both end at the head
  have h₁ := first_of_spansFrom hsp₁
  have h₂ := first_of_spansFrom hsp₂
  rw [hstatic] at h₁ h₂
  simp only [Bool.false_eq_true, if_false, List.length_append] at h₁ h₂
  exact hs (List.eq_nil_of_length_eq_zero (by omega))

end Extension

/-- The language decoding accepts is prefix-free. -/
theorem decode_language_prefix_free (L : ParameterList) (b s : Bytes) (hs : s ≠ []) :
    ¬((∃ vs, L.decode b = .ok vs) ∧ ∃ vs, L.decode (b ++ s) = .ok vs) ∧
      (∀ t : AbiType, ¬((∃ v, t.decode b = .ok v) ∧ ∃ v, t.decode (b ++ s) = .ok v)) ∧
      ((∀ t ∈ L.types, ∃ d, Registry.standard.search d = .ok t) → ∀ vs,
        L.encodedSize vs < machineMax →
        (L.encode vs = .ok b → ∀ vs', L.decode (b ++ s) ≠ .ok vs') ∧
        (L.encode vs = .ok (b ++ s) → ∀ vs', L.decode b ≠ .ok vs')) := by
  refine ⟨fun ⟨⟨vs, h⟩, vs', h'⟩ => hs (eq_nil_of_decode_append h h'),
    fun t ⟨⟨v, h⟩, v', h'⟩ => hs (AbiType.eq_nil_of_decode_append h h'), ?_⟩
  intro hL vs hsize
  have hwf := Registry.forall_wellFormed _ hL
  exact ⟨fun henc vs' h' => hs (eq_nil_of_decode_append (decode_of_encode hwf hsize henc).1 h'),
    fun henc vs' h => hs (eq_nil_of_decode_append h (decode_of_encode hwf hsize henc).1)⟩

set_option maxRecDepth 8000 in
theorem decode_language_prefix_free_sample :
    ([0] : Bytes) ≠ [] ∧
      (⟨[.bytes]⟩ : ParameterList).decode (Word.ofNat 32 ++ Codec.encodePadded [1, 2, 3]) =
        .ok [.bytes [1, 2, 3]] ∧
      ∀ vs, (⟨[.bytes]⟩ : ParameterList).decode
        (Word.ofNat 32 ++ Codec.encodePadded [1, 2, 3] ++ [0]) ≠ .ok vs := by
  have hdec : (⟨[.bytes]⟩ : ParameterList).decode
      (Word.ofNat 32 ++ Codec.encodePadded [1, 2, 3]) = .ok [.bytes [1, 2, 3]] := by
    rfl
  exact ⟨by simp, hdec, fun vs h =>
    (decode_language_prefix_free _ _ [0] (by simp)).1 ⟨⟨_, hdec⟩, vs, h⟩⟩

section Pinned

variable {D D' : Bytes} {H : Nat}

/-- Two buffers of one length, scanned from the same head slot with the same first payload,
whose slices all decode: where their payloads open with the same words, their offset words hold
the same numbers. The induction runs from the first argument on: a dynamic argument's offset is
the first payload's start, and the first word of its payload fixes where the next one starts. -/
theorem spansFrom_pinned (hlen : D.length = D'.length)
    (hpay : H < machineMax → ∀ o, H ≤ o → (D.drop o).take 32 = (D'.drop o).take 32) :
    ∀ {ts : List AbiType} {pos : Nat} {sp sp' : List (Nat × Nat)} {f : Nat},
      spansFrom D H pos ts D.length = .ok (sp, f) →
      spansFrom D' H pos ts D.length = .ok (sp', f) →
      (∀ x ∈ ts.zip sp, ∃ v, x.1.decode (slice D x.2) = .ok v) →
      (∀ x ∈ ts.zip sp', ∃ v, x.1.decode (slice D' x.2) = .ok v) →
      ∀ p ∈ offsetSlotsFrom pos ts, wordAt D p = wordAt D' p
  | [], _, _, _, _, _, _, _, _ => by simp [offsetSlotsFrom]
  | t :: ts, pos, sp, sp', f, h, h', hdec, hdec' => by
    obtain ⟨sp₁, n, hrec, ⟨hd, hlo, -, hlt, rfl, hf⟩ | ⟨hd, rfl, rfl⟩⟩ := spansFrom_cons_eq_ok h
    · obtain ⟨sp₁', n', hrec', ⟨-, -, -, hlt', rfl, hf'⟩ | ⟨hd', -⟩⟩ := spansFrom_cons_eq_ok h'
      swap
      · simp [hd] at hd'
      obtain ⟨v, hv⟩ : ∃ v, t.decode (slice D (wordAt D pos, n)) = .ok v :=
        hdec _ List.mem_cons_self
      obtain ⟨v', hv'⟩ : ∃ v, t.decode (slice D' (wordAt D' pos, n')) = .ok v :=
        hdec' _ List.mem_cons_self
      rw [← hf] at hv hlt hlo
      rw [← hf'] at hv' hlt'
      -- the next payload starts at the same place in both buffers
      have hnn : n = n' := by
        have hn := first_of_spansFrom hrec
        have hn' := first_of_spansFrom hrec'
        by_cases hany : ts.any AbiType.isDynamic
        · -- this payload ends where a later offset points, so it starts past the head and
          -- below `machineMax`, where both buffers hold the same words
          rw [if_pos hany] at hn hn'
          have e := end_of_decode_slice hd (by omega) hv
          have e' := end_of_decode_slice hd (by omega) hv'
          rw [hpay (by omega) f hlo] at e
          omega
        · rw [if_neg hany] at hn hn'
          omega
      subst hnn
      intro p hp
      simp only [offsetSlotsFrom, hd, if_true, List.singleton_append, List.mem_cons] at hp
      rcases hp with rfl | hp
      · rw [← hf, ← hf']
      · exact spansFrom_pinned hlen hpay hrec hrec'
          (fun x hx => hdec x (List.mem_cons_of_mem _ hx))
          (fun x hx => hdec' x (List.mem_cons_of_mem _ hx)) p hp
    · obtain ⟨sp₁', n', hrec', ⟨hd', -⟩ | ⟨-, rfl, rfl⟩⟩ := spansFrom_cons_eq_ok h'
      · simp [hd] at hd'
      intro p hp
      simp only [offsetSlotsFrom, hd, Bool.false_eq_true, if_false, List.nil_append] at hp
      exact spansFrom_pinned hlen hpay hrec hrec'
        (fun x hx => hdec x (List.mem_cons_of_mem _ hx))
        (fun x hx => hdec' x (List.mem_cons_of_mem _ hx)) p hp

theorem eq_of_decode_of_agree {L : ParameterList} (hlen : D.length = D'.length)
    (hagree : ∀ i, ¬L.InOffsetSlot i → D[i]? = D'[i]?) {vs vs' : List Value}
    (h : L.decode D = .ok vs) (h' : L.decode D' = .ok vs') : D = D' := by
  obtain ⟨sp, -, hsp, hdec⟩ := decode_eq_ok h
  obtain ⟨sp', -, hsp', hdec'⟩ := decode_eq_ok h'
  rw [← hlen] at hsp'
  -- an unsaturated head holds every offset word, so the payloads open with the same words
  have hpay : L.headSize < machineMax →
      ∀ o, L.headSize ≤ o → (D.drop o).take 32 = (D'.drop o).take 32 := by
    intro hlt o ho
    have hsum : L.headSize = (L.types.map AbiType.headSize).sum := by
      rw [headSize_eq_min] at hlt ⊢
      omega
    refine take_drop_eq_iff.2 fun i hi _ => hagree i ?_
    rintro ⟨p, hp, -, hip⟩
    have := (offsetSlotsFrom_le hp).2
    omega
  have hslots := spansFrom_pinned hlen hpay hsp hsp' (Except.forall_of_mapM_eq_ok hdec)
    (Except.forall_of_mapM_eq_ok hdec')
  apply List.ext_getElem?
  intro i
  by_cases hi : L.InOffsetSlot i
  · obtain ⟨p, hp, hpi, hip⟩ := hi
    exact take_drop_eq_iff.1 (take_drop_eq_of_wordAt hlen (hslots p hp)) i hpi hip
  · exact hagree i hi

end Pinned

/-- The offsets are fixed by the rest of the buffer. -/
theorem offset_words_forced (L : ParameterList) (b b' : Bytes) (hlen : b.length = b'.length)
    (hagree : ∀ i, ¬L.InOffsetSlot i → b[i]? = b'[i]?) :
    ((∃ vs, L.decode b = .ok vs) → (∃ vs', L.decode b' = .ok vs') → b = b') ∧
      ((∀ t ∈ L.types, ∃ d, Registry.standard.search d = .ok t) → ∀ vs,
        L.encodedSize vs < machineMax → L.encode vs = .ok b → b' ≠ b →
        ∀ vs', L.decode b' ≠ .ok vs') := by
  refine ⟨fun ⟨vs, h⟩ ⟨vs', h'⟩ => eq_of_decode_of_agree hlen hagree h h', ?_⟩
  intro hL vs hsize henc hne vs' h'
  have hwf := Registry.forall_wellFormed _ hL
  exact hne (eq_of_decode_of_agree hlen hagree (decode_of_encode hwf hsize henc).1 h').symm

set_option maxRecDepth 8000 in
theorem offset_words_forced_sample :
    (Word.ofNat 32 ++ Codec.encodePadded [1, 2, 3]).length =
        (Word.ofNat 33 ++ Codec.encodePadded [1, 2, 3]).length ∧
      (∀ i, ¬(⟨[.bytes]⟩ : ParameterList).InOffsetSlot i →
        (Word.ofNat 32 ++ Codec.encodePadded [1, 2, 3])[i]? =
          (Word.ofNat 33 ++ Codec.encodePadded [1, 2, 3])[i]?) ∧
      (⟨[.bytes]⟩ : ParameterList).decode (Word.ofNat 32 ++ Codec.encodePadded [1, 2, 3]) =
        .ok [.bytes [1, 2, 3]] ∧
      ∀ vs, (⟨[.bytes]⟩ : ParameterList).decode
        (Word.ofNat 33 ++ Codec.encodePadded [1, 2, 3]) ≠ .ok vs := by
  have hlen : (Word.ofNat 32 ++ Codec.encodePadded [1, 2, 3]).length =
      (Word.ofNat 33 ++ Codec.encodePadded [1, 2, 3]).length := by
    simp [Word.length_ofNat]
  -- the only offset word is the first word
  have hagree : ∀ i, ¬(⟨[.bytes]⟩ : ParameterList).InOffsetSlot i →
      (Word.ofNat 32 ++ Codec.encodePadded [1, 2, 3])[i]? =
        (Word.ofNat 33 ++ Codec.encodePadded [1, 2, 3])[i]? := by
    intro i hi
    have hslot : (⟨[.bytes]⟩ : ParameterList).offsetSlots = [0] := rfl
    have h32 : 32 ≤ i := by
      by_contra hlt
      exact hi ⟨0, by simp [hslot], by omega, by omega⟩
    rw [List.getElem?_append_right (by simp [Word.length_ofNat]; omega),
      List.getElem?_append_right (by simp [Word.length_ofNat]; omega), Word.length_ofNat,
      Word.length_ofNat]
  have hdec : (⟨[.bytes]⟩ : ParameterList).decode
      (Word.ofNat 32 ++ Codec.encodePadded [1, 2, 3]) = .ok [.bytes [1, 2, 3]] := by
    rfl
  have hne : Word.ofNat 32 ++ Codec.encodePadded [1, 2, 3] ≠
      Word.ofNat 33 ++ Codec.encodePadded [1, 2, 3] := by
    decide
  exact ⟨hlen, hagree, hdec, fun vs h' =>
    hne ((offset_words_forced _ _ _ hlen hagree).1 ⟨_, hdec⟩ ⟨vs, h'⟩)⟩

end ParameterList

end ContractAbi
