import ContractAbi.Proofs.WellFormed
import Mathlib.Data.Nat.Digits.Defs
/-!
The grammar of type descriptors. A descriptor is a base (`uint` or `int` with an optional width,
`address`, `bool`, `function`, `byte`, `bytesK`, `fixed` or `ufixed` with optional widths `MxN`,
`bytes`, `string`) followed by suffixes `[K]` and at most one `[]`, which comes last; `bytes` and
`string` take no suffix. `Form` is a descriptor as written, each number as its digits; `Valid`
holds the bounds on its numbers, and `type` is the type it stands for, the rightmost suffix
outermost. The standard registry resolves exactly the valid forms with at most 32 opening
brackets (`search_eq_ok_iff`): every matcher builds only the type of the form it strips
(`apply_eq_some`), and on a valid form the matchers before its own pass it by.
-/

namespace ContractAbi.Descriptor

def digitValue (c : Char) : Nat := c.toNat - '0'.toNat

/-- The number a run of decimal digits stands for, the most significant digit first. -/
def numeralValue (ds : List Char) : Nat := Nat.ofDigits 10 (ds.reverse.map digitValue)

/-- A run of ASCII digits whose value fits a machine word. -/
def Numeral (ds : List Char) : Prop :=
  ds ≠ [] ∧ (∀ c ∈ ds, c.isDigit = true) ∧ numeralValue ds ≤ machineMax

theorem numeralValue_append_digit (ds : List Char) (c : Char) :
    numeralValue (ds ++ [c]) = numeralValue ds * 10 + digitValue c := by
  simp only [numeralValue, List.reverse_append, List.reverse_singleton, List.singleton_append,
    List.map_cons, Nat.ofDigits_cons]
  omega

theorem foldl_eq_numeralValue (ds : List Char) :
    ds.foldl (fun acc c => acc * 10 + (c.toNat - 48)) 0 = numeralValue ds := by
  induction ds using List.reverseRecOn with
  | nil => rfl
  | append_singleton ds c ih =>
    rw [List.foldl_append, ih, numeralValue_append_digit]
    rfl

theorem digits_eq_ok {s d : List Char} {v : Nat} :
    digits s d = .ok v ↔ Numeral s ∧ numeralValue s = v := by
  unfold digits
  rw [foldl_eq_numeralValue]
  have hbad : (s.isEmpty || !s.all Char.isDigit) = true ↔
      ¬(s ≠ [] ∧ ∀ c ∈ s, c.isDigit = true) := by
    simp [List.isEmpty_iff, imp_iff_not_or]
  by_cases hrun : s ≠ [] ∧ ∀ c ∈ s, c.isDigit = true
  · -- a run of digits: only the machine bound is left to check
    rw [if_neg (mt hbad.1 (not_not.2 hrun))]
    by_cases hbig : numeralValue s > machineMax
    · simp only [hbig, if_true, reduceCtorEq, false_iff]
      exact fun h => by have := h.1.2.2; omega
    · simp only [hbig, if_false, Except.ok.injEq]
      exact ⟨fun h => ⟨⟨hrun.1, hrun.2, by omega⟩, h⟩, fun h => h.2⟩
  · rw [if_pos (hbad.2 hrun)]
    simp only [reduceCtorEq, false_iff]
    exact fun h => hrun ⟨h.1.1, h.1.2.1⟩

/-- A base type as written; a width left out is `none`. -/
inductive ScalarForm where
  | uint (width : Option (List Char))
  | int (width : Option (List Char))
  | address
  | bool
  | function
  | byte
  | bytesN (len : List Char)
  | fixed (widths : Option (List Char × List Char))
  | ufixed (widths : Option (List Char × List Char))

/-- A descriptor of a static type as written: a base, or such a descriptor and a suffix `[K]`. -/
inductive StaticForm where
  | scalar (s : ScalarForm)
  | array (elem : StaticForm) (len : List Char)

/-- A descriptor as written. The dynamic types take no suffix: `bytes`, `string`, and a static
descriptor with the suffix `[]`. -/
inductive Form where
  | static (d : StaticForm)
  | bytes
  | string
  | dynArray (elem : StaticForm)

def widthsText : Option (List Char × List Char) → List Char
  | none => []
  | some (m, n) => m ++ 'x' :: n

def ScalarForm.text : ScalarForm → List Char
  | .uint w => "uint".toList ++ w.getD []
  | .int w => "int".toList ++ w.getD []
  | .address => "address".toList
  | .bool => "bool".toList
  | .function => "function".toList
  | .byte => "byte".toList
  | .bytesN k => "bytes".toList ++ k
  | .fixed w => "fixed".toList ++ widthsText w
  | .ufixed w => "ufixed".toList ++ widthsText w

def StaticForm.text : StaticForm → List Char
  | .scalar s => s.text
  | .array e k => e.text ++ '[' :: k ++ [']']

def Form.text : Form → List Char
  | .static d => d.text
  | .bytes => "bytes".toList
  | .string => "string".toList
  | .dynArray e => e.text ++ ['[', ']']

def IntWidth (w : List Char) : Prop :=
  Numeral w ∧ 8 ≤ numeralValue w ∧ numeralValue w ≤ 256 ∧ numeralValue w % 8 = 0

/-- Fixed-point widths as written: positive multiples of 8 whose sum, as integers, is at most
256. -/
def DecimalWidths (m n : List Char) : Prop :=
  Numeral m ∧ Numeral n ∧ 0 < numeralValue m ∧ numeralValue m % 8 = 0 ∧ 0 < numeralValue n ∧
    numeralValue n % 8 = 0 ∧ numeralValue m + numeralValue n ≤ 256

def ScalarForm.Valid : ScalarForm → Prop
  | .uint none | .int none | .address | .bool | .function | .byte | .fixed none | .ufixed none =>
    True
  | .uint (some w) | .int (some w) => IntWidth w
  | .bytesN k => Numeral k ∧ 1 ≤ numeralValue k ∧ numeralValue k ≤ 32
  | .fixed (some (m, n)) | .ufixed (some (m, n)) => DecimalWidths m n

/-- The widths of a base are written as numerals, whatever their values. -/
def ScalarForm.Lexical : ScalarForm → Prop
  | .uint (some w) | .int (some w) | .bytesN w => Numeral w
  | .fixed (some (m, n)) | .ufixed (some (m, n)) => Numeral m ∧ Numeral n
  | _ => True

theorem ScalarForm.Valid.lexical {s : ScalarForm} (hs : s.Valid) : s.Lexical := by
  cases s with
  | uint w | int w =>
    rcases w with _ | w
    · trivial
    · exact hs.1
  | bytesN k => exact hs.1
  | fixed w | ufixed w =>
    rcases w with _ | ⟨m, n⟩
    · trivial
    · exact ⟨hs.1, hs.2.1⟩
  | address | bool | function | byte => trivial

def ScalarForm.type : ScalarForm → StaticType
  | .uint w => .uint ((w.map numeralValue).getD 256)
  | .int w => .int ((w.map numeralValue).getD 256)
  | .address => .address
  | .bool => .bool
  | .function => .function
  | .byte => .fixedBytes 1
  | .bytesN k => .fixedBytes (numeralValue k)
  | .fixed none => .fixed 128 128
  | .fixed (some (m, n)) => .fixed (numeralValue m) (numeralValue n)
  | .ufixed none => .ufixed 128 128
  | .ufixed (some (m, n)) => .ufixed (numeralValue m) (numeralValue n)

def StaticForm.type : StaticForm → StaticType
  | .scalar s => s.type
  | .array e k => .array e.type (numeralValue k)

/-- The bounds on the numbers of a static descriptor: each array has at least one element and a
size that fits a machine word. -/
def StaticForm.Valid : StaticForm → Prop
  | .scalar s => s.Valid
  | .array e k =>
    e.Valid ∧ Numeral k ∧ 1 ≤ numeralValue k ∧ e.type.fixedSize * numeralValue k ≤ machineMax

def Form.type : Form → AbiType
  | .static d => .static d.type
  | .bytes => .bytes
  | .string => .string
  | .dynArray e => .dynArray e.type

def Form.Valid : Form → Prop
  | .static d | .dynArray d => d.Valid
  | .bytes | .string => True

theorem dropPrefix_eq_some {p s r : List Char} (h : dropPrefix p s = some r) : s = p ++ r := by
  unfold dropPrefix at h
  split_ifs at h with hp
  cases h
  obtain ⟨u, rfl⟩ := List.isPrefixOf_iff_prefix.1 hp
  rw [List.drop_left]

theorem dropSuffix_eq_some {p s r : List Char} (h : dropSuffix p s = some r) : s = r ++ p := by
  unfold dropSuffix at h
  split_ifs at h with hp
  cases h
  obtain ⟨u, rfl⟩ := List.isSuffixOf_iff_suffix.1 hp
  rw [List.length_append, Nat.add_sub_cancel, List.take_left]

theorem eq_split_of_getElem? {c : Char} {s : List Char} {i : Nat} (h : s[i]? = some c) :
    s = s.take i ++ c :: s.drop (i + 1) := by
  obtain ⟨hi, hc⟩ := List.getElem?_eq_some_iff.1 h
  conv_lhs => rw [← List.take_append_drop i s, List.drop_eq_getElem_cons hi, hc]

theorem lastIndexOf_eq_some {c : Char} {s : List Char} {i : Nat} (h : lastIndexOf c s = some i) :
    s = s.take i ++ c :: s.drop (i + 1) := by
  obtain ⟨p, hp, rfl⟩ := Option.map_eq_some_iff.1 h
  have hmem := List.mem_of_getLast? hp
  rw [List.mem_filter] at hmem
  obtain ⟨hz, hc⟩ := hmem
  rw [beq_iff_eq] at hc
  rw [List.mem_zipIdx_iff_getElem?, hc] at hz
  exact eq_split_of_getElem? hz

theorem idxOf?_eq_some {c : Char} {s : List Char} {i : Nat} (h : s.idxOf? c = some i) :
    s = s.take i ++ c :: s.drop (i + 1) := by
  obtain ⟨hi, hc, -⟩ := List.idxOf?_eq_some_iff.1 h
  exact eq_split_of_getElem? (List.getElem?_eq_some_iff.2 ⟨hi, hc⟩)

theorem width_eq_ok {rest d : List Char} {default v : Nat} (h : width rest default d = .ok v) :
    rest = [] ∧ v = default ∨ Numeral rest ∧ numeralValue rest = v := by
  unfold width at h
  split_ifs at h with he
  · cases h
    exact .inl ⟨List.isEmpty_iff.1 he, rfl⟩
  · exact .inr (digits_eq_ok.1 h)

theorem decimalWidths_eq_ok {rest d : List Char} {w : Option (Nat × Nat)}
    (h : decimalWidths rest d = .ok w) :
    rest = [] ∧ w = none ∨
      ∃ m n, rest = m ++ 'x' :: n ∧ Numeral m ∧ Numeral n ∧
        w = some (numeralValue m, numeralValue n) := by
  unfold decimalWidths at h
  split_ifs at h with he
  · cases h
    exact .inl ⟨List.isEmpty_iff.1 he, rfl⟩
  · split at h
    · cases h
    · rename_i i hi
      obtain ⟨m, hm, hrest⟩ := Except.bind_eq_ok.1 h
      obtain ⟨n, hn, hpure⟩ := Except.bind_eq_ok.1 hrest
      cases Except.pure_eq_ok.1 hpure
      obtain ⟨hnum, rfl⟩ := digits_eq_ok.1 hm
      obtain ⟨hnum', rfl⟩ := digits_eq_ok.1 hn
      exact .inr ⟨_, _, idxOf?_eq_some hi, hnum, hnum', rfl⟩

theorem Form.type_eq_static {w : Form} {e : StaticType} (h : w.type = .static e) :
    ∃ d : StaticForm, w = .static d ∧ d.type = e := by
  cases w <;> simp_all [Form.type]

theorem exact_eq_some {d n : List Char} {x t : AbiType}
    (h : (.ok (if d = n then some x else none) : Except AbiError (Option AbiType)) =
      .ok (some t)) : d = n ∧ t = x := by
  split_ifs at h with hd
  · cases h
    exact ⟨hd, rfl⟩
  · cases h

section Sound

variable {search : List Char → Except AbiError AbiType}
  (hs : ∀ d t, search d = .ok t → ∃ w : Form, w.text = d ∧ w.Valid ∧ w.type = t)
include hs

/-- What a matcher claims is a valid form of the type it builds, given that what `search`
resolves is. -/
theorem apply_eq_some {m : Matcher} {d : List Char} {t : AbiType}
    (h : m.apply search d = .ok (some t)) : ∃ w : Form, w.text = d ∧ w.Valid ∧ w.type = t := by
  cases m with
  | dynamicArray =>
    cases hd : dropSuffix ['[', ']'] d with
    | none => simp only [Matcher.apply, hd, Except.ok.injEq, reduceCtorEq] at h
    | some inner =>
      simp only [Matcher.apply, hd] at h
      obtain ⟨it, hit, e, he, hpure⟩ := by simpa only [Except.bind_eq_ok] using h
      cases Except.pure_eq_ok.1 hpure
      obtain ⟨w, hw, hvalid, htype⟩ := hs _ _ hit
      rw [AbiType.toStatic_eq_ok he] at htype
      obtain ⟨sd, rfl, rfl⟩ := Form.type_eq_static htype
      exact ⟨.dynArray sd, by rw [dropSuffix_eq_some hd, ← hw]; rfl, hvalid, rfl⟩
  | fixedArray =>
    cases hd : dropSuffix [']'] d with
    | none => simp only [Matcher.apply, hd, Except.ok.injEq, reduceCtorEq] at h
    | some openRest =>
      cases hi : lastIndexOf '[' openRest with
      | none => simp only [Matcher.apply, hd, hi, reduceCtorEq] at h
      | some i =>
        simp only [Matcher.apply, hd, hi] at h
        obtain ⟨len, hlen, hrest⟩ := Except.bind_eq_ok.1 h
        obtain ⟨hnum, rfl⟩ := digits_eq_ok.1 hlen
        by_cases hzero : numeralValue (openRest.drop (i + 1)) = 0
        · simp [hzero, throw, throwThe, MonadExceptOf.throw, bind, Except.bind] at hrest
        simp only [hzero, if_false] at hrest
        obtain ⟨it, hit, e, he, t', ht', hpure⟩ := by simpa only [Except.bind_eq_ok] using hrest
        cases Except.pure_eq_ok.1 hpure
        obtain ⟨w, hw, hvalid, htype⟩ := hs _ _ hit
        rw [AbiType.toStatic_eq_ok he] at htype
        obtain ⟨sd, rfl, rfl⟩ := Form.type_eq_static htype
        unfold StaticType.arrayOf at ht'
        split_ifs at ht' with hz
        cases ht'
        refine ⟨.static (.array sd (openRest.drop (i + 1))), ?_, ⟨hvalid, hnum, by omega, by omega⟩,
          rfl⟩
        -- the element is the text before the last `[`, the length the digits after it
        change sd.text = openRest.take i at hw
        change sd.text ++ '[' :: openRest.drop (i + 1) ++ [']'] = d
        rw [dropSuffix_eq_some hd, hw, ← lastIndexOf_eq_some hi]
  | uint =>
    cases hd : dropPrefix "uint".toList d with
    | none => simp only [Matcher.apply, hd, Except.ok.injEq, reduceCtorEq] at h
    | some rest =>
      simp only [Matcher.apply, hd] at h
      obtain ⟨bits, hw, st, hst, hpure⟩ := by simpa only [Except.bind_eq_ok] using h
      cases Except.pure_eq_ok.1 hpure
      obtain ⟨rfl, hpos, hle, hmod⟩ := StaticType.uintOf_eq_ok (orMalformed_eq_ok hst)
      obtain ⟨rfl, rfl⟩ | ⟨hnum, rfl⟩ := width_eq_ok hw
      · exact ⟨.static (.scalar (.uint none)), (dropPrefix_eq_some hd).symm, trivial, rfl⟩
      · exact ⟨.static (.scalar (.uint (some rest))), (dropPrefix_eq_some hd).symm,
          ⟨hnum, by omega, hle, hmod⟩, rfl⟩
  | int =>
    cases hd : dropPrefix "int".toList d with
    | none => simp only [Matcher.apply, hd, Except.ok.injEq, reduceCtorEq] at h
    | some rest =>
      simp only [Matcher.apply, hd] at h
      obtain ⟨bits, hw, st, hst, hpure⟩ := by simpa only [Except.bind_eq_ok] using h
      cases Except.pure_eq_ok.1 hpure
      obtain ⟨rfl, hpos, hle, hmod⟩ := StaticType.intOf_eq_ok (orMalformed_eq_ok hst)
      obtain ⟨rfl, rfl⟩ | ⟨hnum, rfl⟩ := width_eq_ok hw
      · exact ⟨.static (.scalar (.int none)), (dropPrefix_eq_some hd).symm, trivial, rfl⟩
      · exact ⟨.static (.scalar (.int (some rest))), (dropPrefix_eq_some hd).symm,
          ⟨hnum, by omega, hle, hmod⟩, rfl⟩
  | address =>
    obtain ⟨rfl, rfl⟩ := exact_eq_some h
    exact ⟨.static (.scalar .address), rfl, trivial, rfl⟩
  | bool =>
    obtain ⟨rfl, rfl⟩ := exact_eq_some h
    exact ⟨.static (.scalar .bool), rfl, trivial, rfl⟩
  | ufixed =>
    cases hd : dropPrefix "ufixed".toList d with
    | none => simp only [Matcher.apply, hd, Except.ok.injEq, reduceCtorEq] at h
    | some rest =>
      simp only [Matcher.apply, hd] at h
      obtain ⟨ws, hws, hrest⟩ := Except.bind_eq_ok.1 h
      obtain ⟨rfl, rfl⟩ | ⟨m, n, rfl, hm, hn, rfl⟩ := decimalWidths_eq_ok hws
      · cases Except.pure_eq_ok.1 hrest
        exact ⟨.static (.scalar (.ufixed none)), (dropPrefix_eq_some hd).symm, trivial, rfl⟩
      · obtain ⟨st, hst, hpure⟩ := Except.bind_eq_ok.1 hrest
        cases Except.pure_eq_ok.1 hpure
        obtain ⟨rfl, hvalid⟩ := StaticType.ufixedOf_eq_ok (orMalformed_eq_ok hst)
        exact ⟨.static (.scalar (.ufixed (some (m, n)))), (dropPrefix_eq_some hd).symm,
          ⟨hm, hn, hvalid⟩, rfl⟩
  | fixed =>
    cases hd : dropPrefix "fixed".toList d with
    | none => simp only [Matcher.apply, hd, Except.ok.injEq, reduceCtorEq] at h
    | some rest =>
      simp only [Matcher.apply, hd] at h
      obtain ⟨ws, hws, hrest⟩ := Except.bind_eq_ok.1 h
      obtain ⟨rfl, rfl⟩ | ⟨m, n, rfl, hm, hn, rfl⟩ := decimalWidths_eq_ok hws
      · cases Except.pure_eq_ok.1 hrest
        exact ⟨.static (.scalar (.fixed none)), (dropPrefix_eq_some hd).symm, trivial, rfl⟩
      · obtain ⟨st, hst, hpure⟩ := Except.bind_eq_ok.1 hrest
        cases Except.pure_eq_ok.1 hpure
        obtain ⟨rfl, hvalid⟩ := StaticType.fixedOf_eq_ok (orMalformed_eq_ok hst)
        exact ⟨.static (.scalar (.fixed (some (m, n)))), (dropPrefix_eq_some hd).symm,
          ⟨hm, hn, hvalid⟩, rfl⟩
  | function =>
    obtain ⟨rfl, rfl⟩ := exact_eq_some h
    exact ⟨.static (.scalar .function), rfl, trivial, rfl⟩
  | bytes =>
    obtain ⟨rfl, rfl⟩ := exact_eq_some h
    exact ⟨.bytes, rfl, trivial, rfl⟩
  | fixedBytes =>
    simp only [Matcher.apply] at h
    split_ifs at h with hbyte
    · cases h
      exact ⟨.static (.scalar .byte), hbyte.symm, trivial, rfl⟩
    · cases hd : dropPrefix "bytes".toList d with
      | none => simp only [hd, Except.ok.injEq, reduceCtorEq] at h
      | some rest =>
        simp only [hd] at h
        obtain ⟨len, hlen, st, hst, hpure⟩ := by simpa only [Except.bind_eq_ok] using h
        cases Except.pure_eq_ok.1 hpure
        obtain ⟨hnum, rfl⟩ := digits_eq_ok.1 hlen
        obtain ⟨rfl, hpos, hle⟩ := StaticType.fixedBytesOf_eq_ok (orMalformed_eq_ok hst)
        exact ⟨.static (.scalar (.bytesN rest)), (dropPrefix_eq_some hd).symm,
          ⟨hnum, hpos, hle⟩, rfl⟩
  | string =>
    obtain ⟨rfl, rfl⟩ := exact_eq_some h
    exact ⟨.string, rfl, trivial, rfl⟩

theorem firstClaim_sound {d : List Char} :
    ∀ {ms : List Matcher} {t : AbiType}, Registry.firstClaim search d ms = .ok t →
      ∃ w : Form, w.text = d ∧ w.Valid ∧ w.type = t
  | [], _, h => by simp [Registry.firstClaim] at h
  | m :: ms, t, h => by
    simp only [Registry.firstClaim] at h
    obtain ⟨claim, hclaim, hnext⟩ := Except.bind_eq_ok.1 h
    cases claim with
    | some t' =>
      cases Except.pure_eq_ok.1 hnext
      exact apply_eq_some hs hclaim
    | none => exact firstClaim_sound hnext

end Sound

theorem searchWith_sound (r : Registry) :
    ∀ (fuel : Nat) {d : List Char} {t : AbiType}, r.searchWith fuel d = .ok t →
      (∃ w : Form, w.text = d ∧ w.Valid ∧ w.type = t) ∧ d.count '[' ≤ maxArrayDepth
  | 0, _, _, h => by simp [Registry.searchWith] at h
  | fuel + 1, d, t, h => by
    simp only [Registry.searchWith] at h
    split_ifs at h with hempty hdeep
    exact ⟨firstClaim_sound (fun _ _ h' => (searchWith_sound r fuel h').1) h, by omega⟩

theorem not_mem_of_numeral {ds : List Char} (h : Numeral ds) {c : Char} (hc : c.isDigit = false) :
    c ∉ ds := fun hmem => by simp [h.2.1 c hmem] at hc

section Complete

variable {search : List Char → Except AbiError AbiType}

theorem firstClaim_cons_none {m : Matcher} {ms : List Matcher} {d : List Char}
    (h : m.apply search d = .ok none) :
    Registry.firstClaim search d (m :: ms) = Registry.firstClaim search d ms := by
  simp only [Registry.firstClaim, h, Except.ok_bind]

theorem firstClaim_cons_some {m : Matcher} {ms : List Matcher} {d : List Char} {t : AbiType}
    (h : m.apply search d = .ok (some t)) : Registry.firstClaim search d (m :: ms) = .ok t := by
  simp only [Registry.firstClaim, h, Except.ok_bind]
  rfl

def claims : Matcher → List Char → Bool
  | .dynamicArray, d => ['[', ']'].isSuffixOf d
  | .fixedArray, d => [']'].isSuffixOf d
  | .uint, d => "uint".toList.isPrefixOf d
  | .int, d => "int".toList.isPrefixOf d
  | .address, d => d == "address".toList
  | .bool, d => d == "bool".toList
  | .ufixed, d => "ufixed".toList.isPrefixOf d
  | .fixed, d => "fixed".toList.isPrefixOf d
  | .function, d => d == "function".toList
  | .bytes, d => d == "bytes".toList
  | .fixedBytes, d => d == "byte".toList || "bytes".toList.isPrefixOf d
  | .string, d => d == "string".toList

theorem apply_eq_none {m : Matcher} {d : List Char} (h : claims m d = false) :
    m.apply search d = .ok none := by
  cases m <;> simp_all [claims, Matcher.apply, dropPrefix, dropSuffix]

theorem firstClaim_cons_error {m : Matcher} {ms : List Matcher} {d : List Char} {e : AbiError}
    (h : m.apply search d = .error e) : Registry.firstClaim search d (m :: ms) = .error e := by
  simp only [Registry.firstClaim, h]
  rfl

/-- The first matcher to take a descriptor up decides it: the answer is the one that matcher gives
in front of any other matchers. -/
theorem firstClaim_of_decides {d : List Char} {r : Except AbiError AbiType} (m : Matcher) :
    ∀ {ms : List Matcher}, m ∈ ms → (∀ m' ∈ ms.takeWhile (· != m), claims m' d = false) →
      (∀ ms', Registry.firstClaim search d (m :: ms') = r) → Registry.firstClaim search d ms = r
  | [], hm, _, _ => by cases hm
  | m' :: ms, hm, hpass, hdecides => by
    by_cases hm' : m' = m
    · subst hm'
      exact hdecides ms
    · have hne : (m' != m) = true := by simpa using hm'
      simp only [List.takeWhile_cons, hne, if_true, List.mem_cons, forall_eq_or_imp] at hpass
      rw [firstClaim_cons_none (apply_eq_none hpass.1)]
      exact firstClaim_of_decides m ((List.mem_cons.1 hm).resolve_left (Ne.symm hm')) hpass.2
        hdecides

theorem isSuffixOf_eq_false {p d : List Char} {c : Char} (hc : c ∈ p) (hd : c ∉ d) :
    p.isSuffixOf d = false := by
  rw [Bool.eq_false_iff, ne_eq, List.isSuffixOf_iff_suffix]
  exact fun ⟨u, hu⟩ => hd (hu ▸ List.mem_append_right u hc)

theorem dropPrefix_append (p r : List Char) : dropPrefix p (p ++ r) = some r := by
  simp [dropPrefix, List.isPrefixOf_iff_prefix]

def ScalarForm.matcher : ScalarForm → Matcher
  | .uint _ => .uint
  | .int _ => .int
  | .address => .address
  | .bool => .bool
  | .function => .function
  | .byte | .bytesN _ => .fixedBytes
  | .fixed _ => .fixed
  | .ufixed _ => .ufixed

theorem width_getD (w : Option (List Char)) (hw : ∀ ds, w = some ds → IntWidth ds) :
    (∀ d, width (w.getD []) 256 d = .ok ((w.map numeralValue).getD 256)) ∧
      validWidth ((w.map numeralValue).getD 256) = true := by
  cases w with
  | none => exact ⟨fun _ => rfl, rfl⟩
  | some ds =>
    obtain ⟨hnum, h8, hle, hmod⟩ := hw ds rfl
    refine ⟨fun d => ?_, StaticType.validWidth_eq_true.2 ⟨by simp; omega, hle, hmod⟩⟩
    simp only [width, List.isEmpty_iff, hnum.1, if_false, Option.getD_some, Option.map_some]
    exact digits_eq_ok.2 ⟨hnum, rfl⟩

theorem decimalWidths_numerals {m n : List Char} (hm : Numeral m) (hn : Numeral n) (d : List Char) :
    decimalWidths (m ++ 'x' :: n) d = .ok (some (numeralValue m, numeralValue n)) := by
  have hx : (m ++ 'x' :: n).idxOf? 'x' = some m.length := by
    rw [List.idxOf?_eq_some_iff]
    refine ⟨by simp, by simp, fun j hj => ?_⟩
    rw [List.getElem_append_left hj]
    exact fun h => not_mem_of_numeral hm (by decide) (h ▸ List.getElem_mem hj)
  simp [decimalWidths, hm.1, hx, digits_eq_ok.2 ⟨hm, rfl⟩, digits_eq_ok.2 ⟨hn, rfl⟩]

theorem decimal_getD (w : Option (List Char × List Char))
    (hw : ∀ m n, w = some (m, n) → DecimalWidths m n) (d : List Char) :
    decimalWidths (widthsText w) d = .ok (w.map fun mn => (numeralValue mn.1, numeralValue mn.2)) := by
  cases w with
  | none => rfl
  | some mn =>
    obtain ⟨m, n⟩ := mn
    obtain ⟨hm, hn, -⟩ := hw m n rfl
    exact decimalWidths_numerals hm hn d

theorem apply_scalar {s : ScalarForm} (hs : s.Valid) :
    s.matcher.apply search s.text = .ok (some (.static s.type)) := by
  cases s with
  | uint w | int w =>
    have hw : ∀ ds, w = some ds → IntWidth ds := fun ds h => by
      subst h
      exact hs
    obtain ⟨hwidth, hvalid⟩ := width_getD w hw
    dsimp only [ScalarForm.matcher, ScalarForm.text, ScalarForm.type]
    rw [Matcher.apply, dropPrefix_append]
    simp only [hwidth, Except.ok_bind, StaticType.uintOf, StaticType.intOf, hvalid, if_true,
      orMalformed]
    rfl
  | address | bool | function | byte =>
    dsimp only [ScalarForm.matcher, ScalarForm.text, ScalarForm.type]
    simp [Matcher.apply]
  | bytesN k =>
    obtain ⟨hnum, hpos, hle⟩ := hs
    have hne : "bytes".toList ++ k ≠ "byte".toList := fun h => by
      simpa using congrArg List.length h
    have hlen : ¬(numeralValue k = 0 ∨ numeralValue k > 32) := by omega
    dsimp only [ScalarForm.matcher, ScalarForm.text, ScalarForm.type]
    rw [Matcher.apply, if_neg hne, dropPrefix_append]
    simp only [digits_eq_ok.2 ⟨hnum, rfl⟩, Except.ok_bind, StaticType.fixedBytesOf, hlen, if_false,
      orMalformed]
    rfl
  | fixed w | ufixed w =>
    have hw : ∀ m n, w = some (m, n) → DecimalWidths m n := fun m n h => by
      subst h
      exact hs
    have hdec := decimal_getD w hw
    dsimp only [ScalarForm.matcher, ScalarForm.text]
    rw [Matcher.apply, dropPrefix_append]
    cases w with
    | none =>
      simp only [hdec, Except.ok_bind, Option.map_none]
      rfl
    | some mn =>
      obtain ⟨m, n⟩ := mn
      have hcheck : ∀ k, StaticType.checkDecimal k (numeralValue m) (numeralValue n) = .ok () :=
        fun _ => StaticType.checkDecimal_eq_ok.2 (hw m n rfl).2.2
      simp only [hdec, Except.ok_bind, Option.map_some, StaticType.fixedOf, StaticType.ufixedOf,
        hcheck]
      rfl

theorem isAlphanum_of_mem_text {s : ScalarForm} (hs : s.Lexical) : ∀ c ∈ s.text, c.isAlphanum := by
  have hnum : ∀ {ds}, Numeral ds → ∀ c ∈ ds, c.isAlphanum := fun h c hc => by
    simp [Char.isAlphanum, h.2.1 c hc]
  cases s with
  | uint w | int w =>
    rcases w with _ | w
    · dsimp only [ScalarForm.text, Option.getD_none]
      simp
    · dsimp only [ScalarForm.text]
      simpa using hnum hs
  | address | bool | function | byte =>
    dsimp only [ScalarForm.text]
    simp
  | bytesN k =>
    dsimp only [ScalarForm.text]
    simpa using hnum hs
  | fixed w | ufixed w =>
    rcases w with _ | ⟨m, n⟩
    · dsimp only [ScalarForm.text, widthsText]
      simp
    · dsimp only [ScalarForm.text, widthsText]
      have hm := hnum hs.1
      have hn := hnum hs.2
      simp only [List.forall_mem_append, List.forall_mem_cons]
      exact ⟨by simp, hm, rfl, hn⟩

theorem not_mem_text {s : ScalarForm} (hs : s.Lexical) {c : Char} (hc : c.isAlphanum = false) :
    c ∉ s.text := fun h => by simp [isAlphanum_of_mem_text hs c h] at hc

theorem firstClaim_scalar_of_decides {s : ScalarForm} (hs : s.Lexical) {r : Except AbiError AbiType}
    (hr : ∀ ms, Registry.firstClaim search s.text (s.matcher :: ms) = r) :
    Registry.firstClaim search s.text Registry.standard.matchers = r := by
  have hdyn : claims .dynamicArray s.text = false :=
    isSuffixOf_eq_false (by simp) (not_mem_text hs (by decide : (']').isAlphanum = false))
  have hfix : claims .fixedArray s.text = false :=
    isSuffixOf_eq_false (by simp) (not_mem_text hs (by decide : (']').isAlphanum = false))
  refine firstClaim_of_decides s.matcher ?_ ?_ hr
  · cases s <;> simp [ScalarForm.matcher, Registry.standard]
  · cases s with
    | bytesN k =>
      have hk : k ≠ [] := hs.1
      dsimp only [ScalarForm.matcher, ScalarForm.text] at hdyn hfix ⊢
      simp_all [Registry.standard, claims, List.isPrefixOf]
    | _ =>
      dsimp only [ScalarForm.matcher, ScalarForm.text] at hdyn hfix ⊢
      simp_all [Registry.standard, claims, List.isPrefixOf]

theorem firstClaim_scalar {s : ScalarForm} (hs : s.Valid) :
    Registry.firstClaim search s.text Registry.standard.matchers = .ok (.static s.type) :=
  firstClaim_scalar_of_decides hs.lexical fun _ => firstClaim_cons_some (apply_scalar hs)

theorem dropSuffix_append (p r : List Char) : dropSuffix p (r ++ p) = some r := by
  simp [dropSuffix, List.isSuffixOf_iff_suffix]

theorem lastIndexOf_append_cons {c : Char} {s r : List Char} (hr : c ∉ r) :
    lastIndexOf c (s ++ c :: r) = some s.length := by
  have hnone : (r.zipIdx (s.length + 1)).filter (·.1 == c) = [] :=
    List.filter_eq_nil_iff.2 fun p hp hpc => by
      rw [beq_iff_eq] at hpc
      exact hr (hpc ▸ List.fst_mem_of_mem_zipIdx hp)
  simp [lastIndexOf, List.zipIdx_append, List.zipIdx_cons, List.filter_append, hnone]

theorem apply_fixedArray_eq {pre k : List Char} (hk : Numeral k) (hpos : 1 ≤ numeralValue k) :
    Matcher.fixedArray.apply search (pre ++ '[' :: k ++ [']']) =
      (do
        let elem ← (← search pre).toStatic
        let t ← StaticType.arrayOf elem (numeralValue k)
        pure (some (.static t))) := by
  have hsplit : pre ++ '[' :: k ++ [']'] = (pre ++ '[' :: k) ++ [']'] := by simp
  have hopen : lastIndexOf '[' (pre ++ '[' :: k) = some pre.length :=
    lastIndexOf_append_cons (not_mem_of_numeral hk (by decide))
  have hlen : (pre ++ '[' :: k).drop (pre.length + 1) = k := by simp
  have htake : (pre ++ '[' :: k).take pre.length = pre := by simp
  have hz : numeralValue k ≠ 0 := by omega
  rw [Matcher.apply, hsplit, dropSuffix_append]
  simp only [hopen, hlen, htake, digits_eq_ok.2 ⟨hk, rfl⟩, Except.ok_bind, hz, if_false]

theorem apply_fixedArray {pre k : List Char} {e : StaticType} (hk : Numeral k)
    (hpos : 1 ≤ numeralValue k) (hsize : e.fixedSize * numeralValue k ≤ machineMax)
    (he : search pre = .ok (.static e)) :
    Matcher.fixedArray.apply search (pre ++ '[' :: k ++ [']']) =
      .ok (some (.static (.array e (numeralValue k)))) := by
  have hz : numeralValue k ≠ 0 := by omega
  have hfit : ¬(e.fixedSize * numeralValue k > machineMax) := by omega
  rw [apply_fixedArray_eq hk hpos]
  simp only [he, Except.ok_bind, AbiType.toStatic, StaticType.arrayOf, hz, hfit, if_false]
  rfl

theorem apply_dynamicArray {pre : List Char} {e : StaticType} (he : search pre = .ok (.static e)) :
    Matcher.dynamicArray.apply search (pre ++ ['[', ']']) = .ok (some (.dynArray e)) := by
  rw [Matcher.apply, dropSuffix_append]
  simp only [he, Except.ok_bind, AbiType.toStatic]
  rfl

theorem claims_dynamicArray_fixed {pre k : List Char} (hk : Numeral k) :
    claims .dynamicArray (pre ++ '[' :: k ++ [']']) = false := by
  obtain ⟨k', c, rfl⟩ := (List.eq_nil_or_concat k).resolve_left hk.1
  have hc : '[' ≠ c := fun h =>
    not_mem_of_numeral hk (by decide : ('[').isDigit = false) (by simp [← h])
  rw [claims, Bool.eq_false_iff, ne_eq, List.isSuffixOf_iff_suffix, ← List.reverse_prefix]
  simp [hc]

theorem ScalarForm.text_ne_nil (s : ScalarForm) : s.text ≠ [] := by
  cases s <;> dsimp only [ScalarForm.text] <;> simp

end Complete

theorem searchWith_static (w : StaticForm) (hv : w.Valid) :
    ∀ {fuel : Nat}, w.text.length < fuel → w.text.count '[' ≤ maxArrayDepth →
      Registry.standard.searchWith fuel w.text = .ok (.static w.type) := by
  induction w with
  | scalar s =>
    intro fuel hlen hdepth
    obtain ⟨fuel, rfl⟩ : ∃ f, fuel = f + 1 := ⟨fuel - 1, by omega⟩
    dsimp only [StaticForm.text, StaticForm.type] at hdepth ⊢
    rw [Registry.searchWith, if_neg (by simpa using s.text_ne_nil), if_neg (by omega)]
    exact firstClaim_scalar hv
  | array e k ih =>
    intro fuel hlen hdepth
    obtain ⟨hve, hk, hpos, hsize⟩ := hv
    obtain ⟨fuel, rfl⟩ : ∃ f, fuel = f + 1 := ⟨fuel - 1, by omega⟩
    dsimp only [StaticForm.text, StaticForm.type] at hlen hdepth ⊢
    -- the element has fewer characters and no more opening brackets than the array
    have he : Registry.standard.searchWith fuel e.text = .ok (.static e.type) := by
      simp only [List.length_append, List.length_cons] at hlen
      simp only [List.count_append] at hdepth
      exact ih hve (by omega) (by omega)
    rw [Registry.searchWith, if_neg (by simp), if_neg (by omega)]
    dsimp only [Registry.standard]
    rw [firstClaim_cons_none (apply_eq_none (claims_dynamicArray_fixed hk))]
    exact firstClaim_cons_some (apply_fixedArray hk hpos hsize he)


theorem searchWith_form (w : Form) (hv : w.Valid) {fuel : Nat} (hlen : w.text.length < fuel)
    (hdepth : w.text.count '[' ≤ maxArrayDepth) :
    Registry.standard.searchWith fuel w.text = .ok w.type := by
  obtain ⟨fuel, rfl⟩ : ∃ f, fuel = f + 1 := ⟨fuel - 1, by omega⟩
  cases w with
  | static d => exact searchWith_static d hv hlen hdepth
  | bytes =>
    dsimp only [Form.text, Form.type] at hdepth ⊢
    rw [Registry.searchWith, if_neg (by simp), if_neg (by omega)]
    refine firstClaim_of_decides .bytes (by simp [Registry.standard]) ?_
      fun _ => firstClaim_cons_some (by simp [Matcher.apply])
    simp [Registry.standard, claims, List.isPrefixOf, List.isSuffixOf]
  | string =>
    dsimp only [Form.text, Form.type] at hdepth ⊢
    rw [Registry.searchWith, if_neg (by simp), if_neg (by omega)]
    refine firstClaim_of_decides .string (by simp [Registry.standard]) ?_
      fun _ => firstClaim_cons_some (by simp [Matcher.apply])
    simp [Registry.standard, claims, List.isPrefixOf, List.isSuffixOf]
  | dynArray e =>
    dsimp only [Form.text, Form.type] at hlen hdepth ⊢
    simp only [List.length_append] at hlen
    have he : Registry.standard.searchWith fuel e.text = .ok (.static e.type) := by
      simp only [List.count_append] at hdepth
      exact searchWith_static e hv (by simp at hlen; omega) (by omega)
    rw [Registry.searchWith, if_neg (by simp), if_neg (by omega)]
    dsimp only [Registry.standard]
    exact firstClaim_cons_some (apply_dynamicArray he)

/-- The descriptors the standard registry resolves are exactly the valid forms with at most
`maxArrayDepth` opening brackets, each to the type it stands for. -/
theorem search_eq_ok_iff {d : String} {t : AbiType} :
    Registry.standard.search d = .ok t ↔
      (∃ w : Form, w.text = d.toList ∧ w.Valid ∧ w.type = t) ∧
        d.toList.count '[' ≤ maxArrayDepth := by
  constructor
  · exact searchWith_sound _ _
  · rintro ⟨⟨w, hw, hv, rfl⟩, hdepth⟩
    rw [Registry.search, ← hw]
    exact searchWith_form w hv (by rw [hw, String.length_toList]; omega) (hw ▸ hdepth)

/-- Reordering or dropping matchers can turn an answer into an error, never into another type. -/
theorem search_refines_standard (ms : List Matcher) {d : String} {t : AbiType}
    (h : (ms.foldl Registry.withMatcher Registry.empty).search d = .ok t) :
    Registry.standard.search d = .ok t :=
  search_eq_ok_iff.2 (searchWith_sound _ _ h)

theorem search_refines_standard_sample :
    ([Matcher.string, .fixedArray, .fixedBytes].foldl Registry.withMatcher Registry.empty).search
        "bytes4[3]" = .ok (.static (.array (.fixedBytes 4) 3)) ∧
      Registry.standard.search "bytes4[3]" = .ok (.static (.array (.fixedBytes 4) 3)) := by
  have h : ([Matcher.string, .fixedArray, .fixedBytes].foldl Registry.withMatcher
      Registry.empty).search "bytes4[3]" = .ok (.static (.array (.fixedBytes 4) 3)) := by
    rfl
  exact ⟨h, search_refines_standard _ h⟩

/- With `bytesK` tried before `bytes`, the dynamic `bytes` is claimed by the wrong matcher and
refused. -/
example : ([Matcher.fixedBytes, .bytes].foldl Registry.withMatcher Registry.empty).search "bytes" =
    .error (.malformedDescriptor "bytes") := by
  rfl

end ContractAbi.Descriptor
