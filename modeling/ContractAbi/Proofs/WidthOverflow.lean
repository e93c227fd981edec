import ContractAbi.Proofs.Grammar
/-!
Widths past the machine word. A fixed-point type adds its two widths, and a refused `bytesK`
multiplies its length by 8, in machine words; a result past `machineMax` stops the program
(`AbiError.overflow`) where the widths should have been refused. The builders accept exactly the
valid widths and stop exactly on these sums (`width_builders_exact`). The standard registry
resolves exactly its grammar and stops exactly on the descriptors built from such a base by array
suffixes (`search_grammar_or_overflow`): a stop inside the element of an array ends the whole
search.
-/

namespace ContractAbi

/-- The error is a stopped run, not an error value. -/
def AbiError.IsOverflow (e : AbiError) : Prop := ∃ op, e = .overflow op

end ContractAbi

namespace Except

theorem ErrorsIn.overflow_imp {α : Type} {x : Except ContractAbi.AbiError α} {P : Prop}
    (hx : x.ErrorsIn (¬ ·.IsOverflow)) : x.ErrorsIn (·.IsOverflow → P) :=
  hx.mono fun _ he ho => absurd ho he

theorem errorsIn_of_overflow {α : Type} {x : Except ContractAbi.AbiError α} {P : Prop}
    (h : ∀ op, x = .error (.overflow op) → P) : x.ErrorsIn (·.IsOverflow → P) :=
  fun _ hx ⟨op, ho⟩ => h op (ho ▸ hx)

end Except

namespace ContractAbi

namespace StaticType

/-- Fixed-point widths that pass the check of each width alone but whose sum is past the machine
word. -/
def DecimalOverflow (m n : Nat) : Prop :=
  0 < m ∧ m % 8 = 0 ∧ 0 < n ∧ n % 8 = 0 ∧ machineMax < m + n

/-- A fixed-point builder stops exactly on valid-looking widths whose sum passes the word. -/
theorem checkDecimal_map_overflow_iff {k : WidthKind} {m n : Nat} {f : Unit → StaticType} :
    (∃ op, (checkDecimal k m n).map f = .error (.overflow op)) ↔ DecimalOverflow m n := by
  simp only [Except.map_eq_error]
  rw [checkDecimal_eq, DecimalOverflow]
  split_ifs <;> simp <;> omega

theorem checkDecimal_map_eq_ok {k : WidthKind} {m n : Nat} {f : Unit → StaticType}
    {t : StaticType} :
    (checkDecimal k m n).map f = .ok t ↔
      t = f () ∧ 0 < m ∧ m % 8 = 0 ∧ 0 < n ∧ n % 8 = 0 ∧ m + n ≤ 256 := by
  rw [Except.map_eq_ok]
  constructor
  · rintro ⟨u, hu, rfl⟩
    exact ⟨rfl, checkDecimal_eq_ok.1 hu⟩
  · rintro ⟨rfl, hw⟩
    exact ⟨(), checkDecimal_eq_ok.2 hw, rfl⟩

theorem checkDecimal_eq_overflow (k : WidthKind) {m n : Nat} (h : DecimalOverflow m n) :
    checkDecimal k m n = .error (.overflow .add) := by
  obtain ⟨hm, hm8, hn, hn8, hover⟩ := h
  rw [checkDecimal_eq, if_neg (by omega), if_neg (by omega), if_pos hover]

theorem fixedBytesOf_overflow_iff {l : Nat} :
    (∃ op, fixedBytesOf l = .error (.overflow op)) ↔ machineMax < l * 8 := by
  rw [fixedBytesOf_eq, machineMax_eq]
  split_ifs <;> simp <;> omega

theorem fixedBytesOf_eq_ok_iff {l : Nat} {t : StaticType} :
    fixedBytesOf l = .ok t ↔ t = .fixedBytes l ∧ 0 < l ∧ l ≤ 32 := by
  constructor
  · intro h
    obtain ⟨rfl, hw⟩ := fixedBytesOf_eq_ok h
    exact ⟨rfl, hw⟩
  · rintro ⟨rfl, hpos, hle⟩
    rw [fixedBytesOf_eq, if_neg (by omega)]

theorem uintOf_errors (b : Nat) : (uintOf b).ErrorsIn (¬ ·.IsOverflow) := by
  simp [uintOf, AbiError.IsOverflow]

theorem intOf_errors (b : Nat) : (intOf b).ErrorsIn (¬ ·.IsOverflow) := by
  simp [intOf, AbiError.IsOverflow]

theorem arrayOf_errors (e : StaticType) (k : Nat) : (arrayOf e k).ErrorsIn (¬ ·.IsOverflow) := by
  simp [arrayOf, AbiError.IsOverflow]

/-- The width builders accept exactly the valid widths, and stop the program exactly where the
machine sum or product of valid-looking widths passes the word. -/
theorem width_builders_exact (m n len : Nat) :
    (∀ t, fixedOf m n = .ok t ↔
      t = .fixed m n ∧ 0 < m ∧ m % 8 = 0 ∧ 0 < n ∧ n % 8 = 0 ∧ m + n ≤ 256) ∧
    (∀ t, ufixedOf m n = .ok t ↔
      t = .ufixed m n ∧ 0 < m ∧ m % 8 = 0 ∧ 0 < n ∧ n % 8 = 0 ∧ m + n ≤ 256) ∧
    ((∃ op, fixedOf m n = .error (.overflow op)) ↔ DecimalOverflow m n) ∧
    ((∃ op, ufixedOf m n = .error (.overflow op)) ↔ DecimalOverflow m n) ∧
    (∀ t, fixedBytesOf len = .ok t ↔ t = .fixedBytes len ∧ 0 < len ∧ len ≤ 32) ∧
    ((∃ op, fixedBytesOf len = .error (.overflow op)) ↔ machineMax < len * 8) ∧
    ∀ (r : Registry) (d : String) (a b : Nat),
      r.search d = .ok (.static (.fixed a b)) ∨ r.search d = .ok (.static (.ufixed a b)) →
        a + b ≤ 256 := by
  -- `fixedOf` and `ufixedOf` are the width check mapped to their type
  refine ⟨fun _ => checkDecimal_map_eq_ok, fun _ => checkDecimal_map_eq_ok,
    checkDecimal_map_overflow_iff, checkDecimal_map_overflow_iff, fun _ => fixedBytesOf_eq_ok_iff,
    fixedBytesOf_overflow_iff, ?_⟩
  rintro r d a b (h | h)
  · exact (Registry.search_wellFormed r h).2.2.2.2
  · exact (Registry.search_wellFormed r h).2.2.2.2

/-- Widths `2 ^ 64 - 8` and `16` pass the check of each width, and their sum stops the program
instead of being refused as wider than 256 bits. -/
theorem ufixedOf_sum_overflows :
    ufixedOf 18446744073709551608 16 = .error (.overflow .add) := by
  rfl

end StaticType

namespace Descriptor

/-- A base whose widths, written as numerals, make its builder stop the program. -/
def ScalarForm.Overflows : ScalarForm → Prop
  | .bytesN k => Numeral k ∧ machineMax < numeralValue k * 8
  | .fixed (some (m, n)) | .ufixed (some (m, n)) =>
    Numeral m ∧ Numeral n ∧ StaticType.DecimalOverflow (numeralValue m) (numeralValue n)
  | _ => False

theorem ScalarForm.Overflows.lexical {s : ScalarForm} (hs : s.Overflows) : s.Lexical := by
  cases s with
  | bytesN k => exact hs.1
  | fixed w | ufixed w =>
    rcases w with _ | ⟨m, n⟩
    · exact hs.elim
    · exact ⟨hs.1, hs.2.1⟩
  | uint | int | address | bool | function | byte => exact hs.elim

/-- The descriptors whose resolution stops the program: a base that stops its builder, under any
suffixes `[]` and `[K]` with `K` a positive numeral. The element of an array is resolved before
the array is built, so its stop is the array's. -/
inductive Overflows : List Char → Prop
  | scalar {s : ScalarForm} : s.Overflows → Overflows s.text
  | dynArray {d : List Char} : Overflows d → Overflows (d ++ ['[', ']'])
  | fixedArray {d k : List Char} : Overflows d → Numeral k → 1 ≤ numeralValue k →
      Overflows (d ++ '[' :: k ++ [']'])

theorem digits_errors (s d : List Char) : (digits s d).ErrorsIn (¬ ·.IsOverflow) := by
  simp [digits, malformed, AbiError.IsOverflow]

theorem width_errors (rest : List Char) (default : Nat) (d : List Char) :
    (width rest default d).ErrorsIn (¬ ·.IsOverflow) := by
  unfold width
  split_ifs
  · exact Except.errorsIn_ok
  · exact digits_errors rest d

theorem decimalWidths_errors (rest d : List Char) :
    (decimalWidths rest d).ErrorsIn (¬ ·.IsOverflow) := by
  unfold decimalWidths
  split_ifs
  · exact Except.errorsIn_ok
  · split
    · simp [malformed, AbiError.IsOverflow]
    · exact (digits_errors _ d).bind fun _ _ =>
        (digits_errors _ d).bind fun _ _ => Except.errorsIn_pure

theorem toStatic_errors (t : AbiType) : t.toStatic.ErrorsIn (¬ ·.IsOverflow) := by
  cases t <;> simp [AbiType.toStatic, AbiError.IsOverflow]

theorem orMalformed_errors {d : List Char} {x : Except AbiError StaticType} {P : Prop}
    (hx : x.ErrorsIn (·.IsOverflow → P)) : (orMalformed d x).ErrorsIn (·.IsOverflow → P) := by
  rcases x with e | t
  · cases e
    case overflow op => exact hx
    all_goals simp [orMalformed, malformed, AbiError.IsOverflow]
  · exact Except.errorsIn_ok

section Sound

variable {search : List Char → Except AbiError AbiType}
  (hs : ∀ d, (search d).ErrorsIn (·.IsOverflow → Overflows d))
include hs

/-- A matcher stops the program only on a descriptor that stops it, given that what `search`
stops on does. -/
theorem apply_errors (m : Matcher) (d : List Char) :
    (m.apply search d).ErrorsIn (·.IsOverflow → Overflows d) := by
  cases m with
  | dynamicArray =>
    cases hd : dropSuffix ['[', ']'] d with
    | none => simp [Matcher.apply, hd]
    | some inner =>
      simp only [Matcher.apply, hd]
      rw [dropSuffix_eq_some hd]
      exact ((hs inner).mono fun _ h ho => .dynArray (h ho)).bind fun it _ =>
        (toStatic_errors it).overflow_imp.bind fun _ _ => Except.errorsIn_pure
  | fixedArray =>
    cases hd : dropSuffix [']'] d with
    | none => simp [Matcher.apply, hd]
    | some openRest =>
      cases hi : lastIndexOf '[' openRest with
      | none => simp [Matcher.apply, hd, hi, malformed, AbiError.IsOverflow]
      | some i =>
        simp only [Matcher.apply, hd, hi]
        refine (digits_errors _ d).overflow_imp.bind fun len hlen => ?_
        obtain ⟨hnum, rfl⟩ := digits_eq_ok.1 hlen
        by_cases hzero : numeralValue (openRest.drop (i + 1)) = 0
        · simp [hzero, throw, throwThe, MonadExceptOf.throw, bind, Except.bind, malformed,
            AbiError.IsOverflow]
        simp only [hzero, if_false]
        -- the element, the text before the last `[`, is resolved first; only it can stop
        have hsplit : d = openRest.take i ++ '[' :: openRest.drop (i + 1) ++ [']'] := by
          rw [dropSuffix_eq_some hd, ← lastIndexOf_eq_some hi]
        refine ((hs _).mono fun _ h ho => hsplit ▸ .fixedArray (h ho) hnum (by omega)).bind
          fun it _ => (toStatic_errors it).overflow_imp.bind fun e _ =>
            (StaticType.arrayOf_errors e _).overflow_imp.bind fun _ _ => Except.errorsIn_pure
  | uint =>
    cases hd : dropPrefix "uint".toList d with
    | none =>
      simp only [Matcher.apply, hd]
      exact Except.errorsIn_ok
    | some rest =>
      simp only [Matcher.apply, hd]
      exact (width_errors rest 256 d).overflow_imp.bind fun b _ =>
        (orMalformed_errors (StaticType.uintOf_errors b).overflow_imp).bind fun _ _ =>
          Except.errorsIn_pure
  | int =>
    cases hd : dropPrefix "int".toList d with
    | none =>
      simp only [Matcher.apply, hd]
      exact Except.errorsIn_ok
    | some rest =>
      simp only [Matcher.apply, hd]
      exact (width_errors rest 256 d).overflow_imp.bind fun b _ =>
        (orMalformed_errors (StaticType.intOf_errors b).overflow_imp).bind fun _ _ =>
          Except.errorsIn_pure
  | ufixed =>
    cases hd : dropPrefix "ufixed".toList d with
    | none =>
      simp only [Matcher.apply, hd]
      exact Except.errorsIn_ok
    | some rest =>
      simp only [Matcher.apply, hd]
      refine (decimalWidths_errors rest d).overflow_imp.bind fun w hw => ?_
      obtain ⟨rfl, rfl⟩ | ⟨m, n, rfl, hm, hn, rfl⟩ := decimalWidths_eq_ok hw
      · exact Except.errorsIn_pure
      · rw [dropPrefix_eq_some hd]
        exact (orMalformed_errors (Except.errorsIn_of_overflow fun op h =>
          .scalar (s := .ufixed (some (m, n)))
            ⟨hm, hn, StaticType.checkDecimal_map_overflow_iff.1 ⟨op, h⟩⟩)).map
  | fixed =>
    cases hd : dropPrefix "fixed".toList d with
    | none =>
      simp only [Matcher.apply, hd]
      exact Except.errorsIn_ok
    | some rest =>
      simp only [Matcher.apply, hd]
      refine (decimalWidths_errors rest d).overflow_imp.bind fun w hw => ?_
      obtain ⟨rfl, rfl⟩ | ⟨m, n, rfl, hm, hn, rfl⟩ := decimalWidths_eq_ok hw
      · exact Except.errorsIn_pure
      · rw [dropPrefix_eq_some hd]
        exact (orMalformed_errors (Except.errorsIn_of_overflow fun op h =>
          .scalar (s := .fixed (some (m, n)))
            ⟨hm, hn, StaticType.checkDecimal_map_overflow_iff.1 ⟨op, h⟩⟩)).map
  | fixedBytes =>
    by_cases hbyte : d = "byte".toList
    · simp only [Matcher.apply, if_pos hbyte]
      exact Except.errorsIn_ok
    cases hd : dropPrefix "bytes".toList d with
    | none =>
      simp only [Matcher.apply, if_neg hbyte, hd]
      exact Except.errorsIn_ok
    | some rest =>
      simp only [Matcher.apply, if_neg hbyte, hd]
      refine (digits_errors rest d).overflow_imp.bind fun len hlen => ?_
      obtain ⟨hnum, rfl⟩ := digits_eq_ok.1 hlen
      rw [dropPrefix_eq_some hd]
      exact (orMalformed_errors (Except.errorsIn_of_overflow fun op h =>
        .scalar (s := .bytesN rest) ⟨hnum, StaticType.fixedBytesOf_overflow_iff.1 ⟨op, h⟩⟩)).map
  | address | bool | function | bytes | string =>
    simp only [Matcher.apply]
    exact Except.errorsIn_ok

theorem firstClaim_errors (d : List Char) :
    ∀ ms : List Matcher, (Registry.firstClaim search d ms).ErrorsIn (·.IsOverflow → Overflows d)
  | [] => by simp [Registry.firstClaim, AbiError.IsOverflow]
  | m :: ms => by
    simp only [Registry.firstClaim]
    refine (apply_errors hs m d).bind fun c _ => ?_
    cases c with
    | some t => exact Except.errorsIn_pure
    | none => exact firstClaim_errors d ms

end Sound

theorem searchWith_errors (r : Registry) : ∀ (fuel : Nat) (d : List Char),
    (r.searchWith fuel d).ErrorsIn (·.IsOverflow → Overflows d ∧ d.count '[' ≤ maxArrayDepth)
  | 0, d => by simp [Registry.searchWith, AbiError.IsOverflow]
  | fuel + 1, d => by
    simp only [Registry.searchWith]
    split_ifs with hempty hdeep
    · simp [AbiError.IsOverflow]
    · simp [AbiError.IsOverflow]
    · have hs d' := (searchWith_errors r fuel d').mono fun _ h ho => (h ho).1
      exact (firstClaim_errors hs d r.matchers).mono fun _ h ho => ⟨h ho, by omega⟩

theorem apply_scalar_overflow {search : List Char → Except AbiError AbiType} {s : ScalarForm}
    (hs : s.Overflows) : ∃ op, s.matcher.apply search s.text = .error (.overflow op) := by
  cases s with
  | bytesN k =>
    obtain ⟨hk, hover⟩ := hs
    have hne : "bytes".toList ++ k ≠ "byte".toList := fun h => by
      simpa using congrArg List.length h
    have hbig : numeralValue k = 0 ∨ numeralValue k > 32 := by
      rw [machineMax_eq] at hover
      omega
    refine ⟨.mul, ?_⟩
    dsimp only [ScalarForm.matcher, ScalarForm.text]
    rw [Matcher.apply, if_neg hne, dropPrefix_append]
    simp only [digits_eq_ok.2 ⟨hk, rfl⟩, Except.ok_bind, StaticType.fixedBytesOf_eq, if_pos hbig,
      if_pos hover, orMalformed]
    rfl
  | fixed w | ufixed w =>
    rcases w with _ | ⟨m, n⟩
    · exact hs.elim
    obtain ⟨hm, hn, hover⟩ := hs
    have hcheck : ∀ k, StaticType.checkDecimal k (numeralValue m) (numeralValue n) =
        .error (.overflow .add) := fun k => StaticType.checkDecimal_eq_overflow k hover
    refine ⟨.add, ?_⟩
    dsimp only [ScalarForm.matcher, ScalarForm.text, widthsText]
    rw [Matcher.apply, dropPrefix_append]
    simp only [decimalWidths_numerals hm hn, Except.ok_bind, StaticType.fixedOf,
      StaticType.ufixedOf, hcheck]
    rfl
  | uint | int | address | bool | function | byte => exact hs.elim

theorem searchWith_overflows {d : List Char} (hd : Overflows d) :
    ∀ fuel, d.length < fuel → d.count '[' ≤ maxArrayDepth →
      ∃ op, Registry.standard.searchWith fuel d = .error (.overflow op) := by
  induction hd with
  | @scalar s hs =>
    intro fuel hlen hdepth
    obtain ⟨fuel, rfl⟩ : ∃ f, fuel = f + 1 := ⟨fuel - 1, by omega⟩
    obtain ⟨op, hop⟩ := @apply_scalar_overflow (Registry.standard.searchWith fuel) _ hs
    refine ⟨op, ?_⟩
    rw [Registry.searchWith, if_neg (by simpa using s.text_ne_nil), if_neg (by omega)]
    exact firstClaim_scalar_of_decides hs.lexical fun _ => firstClaim_cons_error hop
  | @dynArray d hd ih =>
    intro fuel hlen hdepth
    obtain ⟨fuel, rfl⟩ : ∃ f, fuel = f + 1 := ⟨fuel - 1, by omega⟩
    -- the element is shorter than the array, with no more opening brackets
    obtain ⟨op, hop⟩ : ∃ op, Registry.standard.searchWith fuel d = .error (.overflow op) := by
      simp only [List.length_append, List.count_append] at hlen hdepth
      exact ih fuel (by simp at hlen; omega) (by omega)
    have happ : Matcher.dynamicArray.apply (Registry.standard.searchWith fuel) (d ++ ['[', ']']) =
        .error (.overflow op) := by
      rw [Matcher.apply, dropSuffix_append]
      simp only [hop]
      rfl
    refine ⟨op, ?_⟩
    rw [Registry.searchWith, if_neg (by simp), if_neg (by omega)]
    exact firstClaim_cons_error happ
  | @fixedArray d k hd hk hpos ih =>
    intro fuel hlen hdepth
    obtain ⟨fuel, rfl⟩ : ∃ f, fuel = f + 1 := ⟨fuel - 1, by omega⟩
    obtain ⟨op, hop⟩ : ∃ op, Registry.standard.searchWith fuel d = .error (.overflow op) := by
      simp only [List.length_append, List.length_cons, List.count_append] at hlen hdepth
      exact ih fuel (by omega) (by omega)
    have happ : Matcher.fixedArray.apply (Registry.standard.searchWith fuel)
        (d ++ '[' :: k ++ [']']) = .error (.overflow op) := by
      rw [apply_fixedArray_eq hk hpos, hop]
      rfl
    refine ⟨op, ?_⟩
    rw [Registry.searchWith, if_neg (by simp), if_neg (by omega)]
    dsimp only [Registry.standard]
    rw [firstClaim_cons_none (apply_eq_none (claims_dynamicArray_fixed hk))]
    exact firstClaim_cons_error happ

theorem search_overflow_iff {d : String} :
    (∃ op, Registry.standard.search d = .error (.overflow op)) ↔
      Overflows d.toList ∧ d.toList.count '[' ≤ maxArrayDepth := by
  constructor
  · rintro ⟨op, h⟩
    exact searchWith_errors _ _ _ _ h ⟨op, rfl⟩
  · rintro ⟨hd, hdepth⟩
    exact searchWith_overflows hd _ (by rw [String.length_toList]; omega) hdepth

/-- The standard registry resolves exactly its grammar, and stops the program exactly on the
descriptors whose widths pass the machine word. -/
theorem search_grammar_or_overflow (d : String) :
    (∀ t, Registry.standard.search d = .ok t ↔
      (∃ w : Form, w.text = d.toList ∧ w.Valid ∧ w.type = t) ∧
        d.toList.count '[' ≤ maxArrayDepth) ∧
    ((∃ op, Registry.standard.search d = .error (.overflow op)) ↔
      Overflows d.toList ∧ d.toList.count '[' ≤ maxArrayDepth) :=
  ⟨fun _ => search_eq_ok_iff, search_overflow_iff⟩

/-- Widths `2 ^ 64 - 8` and `16`, each a positive multiple of 8, sum past the machine word: the
descriptor stops the program instead of being refused as malformed. -/
theorem search_fixed_sum_overflows :
    Registry.standard.search "fixed18446744073709551608x16" = .error (.overflow .add) := by
  rfl

end Descriptor

end ContractAbi
