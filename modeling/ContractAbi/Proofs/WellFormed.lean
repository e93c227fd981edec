import ContractAbi.Abi.Registry
import ContractAbi.Proofs.Words
/-!
Well-formed types: the types the builders let through. An integer width is a positive multiple
of 8 up to 256, `bytesN` has `1 ≤ N ≤ 32`, a fixed-point type has positive multiples of 8 that sum
to at most 256, and a fixed array has at least one element and a machine-sized size. Every
registry, whatever its matchers, resolves descriptors to well-formed types only
(`Registry.search_wellFormed`), and a well-formed static type takes a positive, machine-sized
whole number of words.
-/

namespace ContractAbi

namespace StaticType

/-- A static type as its builders make it. -/
def WellFormed : StaticType → Prop
  | .uint b | .int b => 0 < b ∧ b ≤ 256 ∧ b % 8 = 0
  | .bool | .address | .function => True
  | .fixedBytes l => 0 < l ∧ l ≤ 32
  | .fixed m n | .ufixed m n => 0 < m ∧ m % 8 = 0 ∧ 0 < n ∧ n % 8 = 0 ∧ m + n ≤ 256
  | .array t k => t.WellFormed ∧ 0 < k ∧ t.fixedSize * k ≤ machineMax

theorem validWidth_eq_true {b : Nat} : validWidth b = true ↔ 0 < b ∧ b ≤ 256 ∧ b % 8 = 0 := by
  simp only [validWidth, Bool.and_eq_true, bne_iff_ne, ne_eq, decide_eq_true_eq, beq_iff_eq]
  omega

/-- The width check with its machine addition read out: the sum of two valid widths stops the
program when it passes `machineMax`, before it is compared with 256. -/
theorem checkDecimal_eq (k : WidthKind) (m n : Nat) :
    checkDecimal k m n =
      if m = 0 ∨ m % 8 ≠ 0 then .error (.invalidBitWidth k m)
      else if n = 0 ∨ n % 8 ≠ 0 then .error (.invalidBitWidth k n)
      else if machineMax < m + n then .error (.overflow .add)
      else if 256 < m + n then .error (.invalidBitWidth k (m + n)) else .ok () := by
  unfold checkDecimal
  by_cases hm : m = 0 ∨ m % 8 ≠ 0
  · rw [if_pos hm, if_pos hm]
  rw [if_neg hm, if_neg hm]
  by_cases hn : n = 0 ∨ n % 8 ≠ 0
  · rw [if_pos hn, if_pos hn]
  rw [if_neg hn, if_neg hn, Usize.add]
  by_cases hover : machineMax < m + n
  · rw [if_pos hover, if_pos hover]
    rfl
  · rw [if_neg (by omega), if_neg hover]
    rfl

theorem checkDecimal_eq_ok {k : WidthKind} {m n : Nat} {u : Unit} :
    checkDecimal k m n = .ok u ↔ 0 < m ∧ m % 8 = 0 ∧ 0 < n ∧ n % 8 = 0 ∧ m + n ≤ 256 := by
  rw [checkDecimal_eq, machineMax_eq]
  split_ifs <;> simp only [false_iff, true_iff] <;> omega

theorem uintOf_eq_ok {b : Nat} {t : StaticType} (h : uintOf b = .ok t) :
    t = .uint b ∧ t.WellFormed := by
  unfold uintOf at h
  split at h
  · cases h
    exact ⟨rfl, validWidth_eq_true.1 ‹_›⟩
  · cases h

theorem intOf_eq_ok {b : Nat} {t : StaticType} (h : intOf b = .ok t) :
    t = .int b ∧ t.WellFormed := by
  unfold intOf at h
  split at h
  · cases h
    exact ⟨rfl, validWidth_eq_true.1 ‹_›⟩
  · cases h

theorem fixedBytesOf_eq (l : Nat) :
    fixedBytesOf l =
      if l = 0 ∨ l > 32 then
        if machineMax < l * 8 then .error (.overflow .mul) else .error (.invalidBitWidth .bytes (l * 8))
      else .ok (.fixedBytes l) := by
  unfold fixedBytesOf
  split_ifs with hl hover
  · rw [Usize.mul, if_pos hover]
    rfl
  · rw [Usize.mul, if_neg (by omega)]
    rfl
  · rfl

theorem fixedBytesOf_eq_ok {l : Nat} {t : StaticType} (h : fixedBytesOf l = .ok t) :
    t = .fixedBytes l ∧ t.WellFormed := by
  rw [fixedBytesOf_eq] at h
  split_ifs at h
  cases h
  exact ⟨rfl, by simp only [WellFormed]; omega⟩

theorem fixedOf_eq_ok {m n : Nat} {t : StaticType} (h : fixedOf m n = .ok t) :
    t = .fixed m n ∧ t.WellFormed := by
  unfold fixedOf at h
  obtain ⟨u, hu, rfl⟩ := Except.map_eq_ok.1 h
  exact ⟨rfl, checkDecimal_eq_ok.1 hu⟩

theorem ufixedOf_eq_ok {m n : Nat} {t : StaticType} (h : ufixedOf m n = .ok t) :
    t = .ufixed m n ∧ t.WellFormed := by
  unfold ufixedOf at h
  obtain ⟨u, hu, rfl⟩ := Except.map_eq_ok.1 h
  exact ⟨rfl, checkDecimal_eq_ok.1 hu⟩

theorem arrayOf_eq_ok {e t : StaticType} {k : Nat} (he : e.WellFormed) (h : arrayOf e k = .ok t) :
    t = .array e k ∧ t.WellFormed := by
  unfold arrayOf at h
  split at h
  · cases h
  · split at h
    · cases h
    · cases h
      exact ⟨rfl, he, by omega, by omega⟩

theorem fixedSize_facts : ∀ {t : StaticType}, t.WellFormed →
    0 < t.fixedSize ∧ t.fixedSize % 32 = 0 ∧ t.fixedSize ≤ machineMax
  | .array t k, ⟨ht, hk, hmax⟩ => by
    obtain ⟨hpos, hdvd, -⟩ := fixedSize_facts ht
    refine ⟨Nat.mul_pos hpos hk, ?_, hmax⟩
    simp only [fixedSize]
    rw [Nat.mul_mod, hdvd, Nat.zero_mul, Nat.zero_mod]
  | .uint _, _ | .int _, _ | .bool, _ | .address, _ | .function, _ | .fixedBytes _, _
  | .fixed _ _, _ | .ufixed _ _, _ => by simp [fixedSize, wordSize, machineMax_eq]

theorem fixedSize_pos {t : StaticType} (ht : t.WellFormed) : 0 < t.fixedSize :=
  (fixedSize_facts ht).1

theorem fixedSize_le {t : StaticType} (ht : t.WellFormed) : t.fixedSize ≤ machineMax :=
  (fixedSize_facts ht).2.2

end StaticType

namespace AbiType

def WellFormed : AbiType → Prop
  | .static t | .dynArray t => t.WellFormed
  | .bytes | .string => True

theorem toStatic_eq_ok {t : AbiType} {s : StaticType} (h : t.toStatic = .ok s) :
    t = .static s := by
  cases t <;> simp [toStatic] at h
  rw [h]

end AbiType

theorem Descriptor.orMalformed_eq_ok {d : List Char} {x : Except AbiError StaticType}
    {t : StaticType} (h : Descriptor.orMalformed d x = .ok t) : x = .ok t := by
  rcases x with e | _
  · cases e <;> simp [Descriptor.orMalformed] at h
  · exact h

namespace Registry

open Descriptor in
theorem apply_wellFormed {search : List Char → Except AbiError AbiType}
    (hs : ∀ d t, search d = .ok t → t.WellFormed) {m : Matcher} {d : List Char} {t : AbiType}
    (h : m.apply search d = .ok (some t)) : t.WellFormed := by
  -- each matcher either claims nothing, builds a scalar through its checked builder, or wraps an
  -- element that `search` resolved
  cases m with
  | dynamicArray =>
    simp only [Matcher.apply] at h
    split at h
    · cases h
    · obtain ⟨inner, hinner, e, he, hpure⟩ := by
        simpa only [Except.bind_eq_ok] using h
      cases Except.pure_eq_ok.1 hpure
      have := hs _ _ hinner
      rw [AbiType.toStatic_eq_ok he] at this
      exact this
  | fixedArray =>
    simp only [Matcher.apply] at h
    split at h
    · cases h
    · split at h
      · cases h
      · obtain ⟨len, -, hlen⟩ := Except.bind_eq_ok.1 h
        by_cases hzero : len = 0
        · simp [hzero, throw, throwThe, MonadExceptOf.throw, bind, Except.bind] at hlen
        simp only [hzero, if_false] at hlen
        obtain ⟨inner, hinner, e, he, t', ht', hpure⟩ := by
          simpa only [Except.bind_eq_ok] using hlen
        cases Except.pure_eq_ok.1 hpure
        have helem := hs _ _ hinner
        rw [AbiType.toStatic_eq_ok he] at helem
        exact (StaticType.arrayOf_eq_ok helem ht').2
  | uint =>
    simp only [Matcher.apply] at h
    split at h
    · cases h
    · obtain ⟨bits, -, s, hs', hpure⟩ := by simpa only [Except.bind_eq_ok] using h
      cases Except.pure_eq_ok.1 hpure
      exact (StaticType.uintOf_eq_ok (Descriptor.orMalformed_eq_ok hs')).2
  | int =>
    simp only [Matcher.apply] at h
    split at h
    · cases h
    · obtain ⟨bits, -, s, hs', hpure⟩ := by simpa only [Except.bind_eq_ok] using h
      cases Except.pure_eq_ok.1 hpure
      exact (StaticType.intOf_eq_ok (Descriptor.orMalformed_eq_ok hs')).2
  | address | bool | function | bytes | string =>
    simp only [Matcher.apply] at h
    split at h
    · cases h
      trivial
    · cases h
  | ufixed =>
    simp only [Matcher.apply] at h
    split at h
    · cases h
    · obtain ⟨w, -, hw⟩ := by simpa only [Except.bind_eq_ok] using h
      split at hw
      · cases hw
        simp [AbiType.WellFormed, StaticType.WellFormed]
      · obtain ⟨s, hs', hpure⟩ := by simpa only [Except.bind_eq_ok] using hw
        cases Except.pure_eq_ok.1 hpure
        exact (StaticType.ufixedOf_eq_ok (Descriptor.orMalformed_eq_ok hs')).2
  | fixed =>
    simp only [Matcher.apply] at h
    split at h
    · cases h
    · obtain ⟨w, -, hw⟩ := by simpa only [Except.bind_eq_ok] using h
      split at hw
      · cases hw
        simp [AbiType.WellFormed, StaticType.WellFormed]
      · obtain ⟨s, hs', hpure⟩ := by simpa only [Except.bind_eq_ok] using hw
        cases Except.pure_eq_ok.1 hpure
        exact (StaticType.fixedOf_eq_ok (Descriptor.orMalformed_eq_ok hs')).2
  | fixedBytes =>
    simp only [Matcher.apply] at h
    split at h
    · cases h
      simp [AbiType.WellFormed, StaticType.WellFormed]
    · split at h
      · cases h
      · obtain ⟨len, -, s, hs', hpure⟩ := by simpa only [Except.bind_eq_ok] using h
        cases Except.pure_eq_ok.1 hpure
        exact (StaticType.fixedBytesOf_eq_ok (Descriptor.orMalformed_eq_ok hs')).2

theorem firstClaim_wellFormed {search : List Char → Except AbiError AbiType}
    (hs : ∀ d t, search d = .ok t → t.WellFormed) {d : List Char} :
    ∀ {ms : List Matcher} {t : AbiType}, firstClaim search d ms = .ok t → t.WellFormed
  | [], _, h => by simp [firstClaim] at h
  | m :: ms, t, h => by
    simp only [firstClaim] at h
    obtain ⟨claim, hclaim, hnext⟩ := Except.bind_eq_ok.1 h
    cases claim with
    | some t' =>
      cases Except.pure_eq_ok.1 hnext
      exact apply_wellFormed hs hclaim
    | none => exact firstClaim_wellFormed hs hnext

theorem searchWith_wellFormed (r : Registry) :
    ∀ (fuel : Nat) {d : List Char} {t : AbiType}, r.searchWith fuel d = .ok t → t.WellFormed
  | 0, _, _, h => by simp [searchWith] at h
  | fuel + 1, d, t, h => by
    simp only [searchWith] at h
    split at h
    · cases h
    · split at h
      · cases h
      · exact firstClaim_wellFormed (fun _ _ => searchWith_wellFormed r fuel) h

theorem search_wellFormed (r : Registry) {d : String} {t : AbiType} (h : r.search d = .ok t) :
    t.WellFormed :=
  searchWith_wellFormed r _ h

theorem forall_wellFormed (r : Registry) {ts : List AbiType}
    (h : ∀ t ∈ ts, ∃ d, r.search d = .ok t) : ∀ t ∈ ts, t.WellFormed :=
  fun t ht => search_wellFormed r (h t ht).choose_spec

end Registry

end ContractAbi
