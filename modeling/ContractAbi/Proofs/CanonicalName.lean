import ContractAbi.Proofs.Grammar
/-!
Canonical names. The name of a type the standard registry resolves is the descriptor it was
resolved from with every default written out (`uint256`, `int256`, `bytes1`, `fixed128x128`,
`ufixed128x128`) and the leading zeros of every number dropped, array lengths included
(`Form.normalize`). That text is again a valid form of the same type with as many opening
brackets, so resolution maps canonical names to themselves.
-/

namespace ContractAbi.Descriptor

def stripZeros (ds : List Char) : List Char := ds.dropWhile (· == '0')

theorem numeralValue_eq_ofDigitChars (ds : List Char) :
    numeralValue ds = Nat.ofDigitChars 10 ds 0 := by
  induction ds using List.reverseRecOn with
  | nil => rfl
  | append_singleton ds c ih =>
    rw [numeralValue_append_digit, Nat.ofDigitChars_append, ← ih, Nat.ofDigitChars_cons,
      Nat.ofDigitChars_nil, digitValue]
    omega

@[simp] theorem numeralValue_toDigits (n : Nat) : numeralValue (Nat.toDigits 10 n) = n := by
  rw [numeralValue_eq_ofDigitChars, Nat.ofDigitChars_ten_toDigits]

theorem numeral_toDigits (n : Nat) (h : n ≤ machineMax) : Numeral (Nat.toDigits 10 n) :=
  ⟨Nat.toDigits_ne_nil, fun _ hc => Nat.isDigit_of_mem_toDigits (by decide) (by decide) hc,
    by rw [numeralValue_toDigits]; exact h⟩

theorem digitValue_lt {c : Char} (hc : c.isDigit = true) : digitValue c < 10 := by
  have := Char.isDigit_iff_toNat.1 hc
  simp only [digitValue]
  have h0 : '0'.toNat = 48 := rfl
  have h9 : '9'.toNat = 57 := rfl
  omega

theorem digitChar_digitValue {c : Char} (hc : c.isDigit = true) :
    Nat.digitChar (digitValue c) = c := by
  have hge : '0'.toNat ≤ c.toNat := (Char.isDigit_iff_toNat.1 hc).1
  rw [← Char.toNat_inj, Nat.toNat_digitChar_of_lt_ten (digitValue_lt hc), digitValue]
  have h0 : '0'.toNat = 48 := rfl
  omega

theorem stripZeros_eq {ds : List Char} (hd : ∀ c ∈ ds, c.isDigit = true) :
    stripZeros ds = if numeralValue ds = 0 then [] else Nat.toDigits 10 (numeralValue ds) := by
  induction ds using List.reverseRecOn with
  | nil => rfl
  | append_singleton ds c ih =>
    have hc : c.isDigit = true := hd c (by simp)
    have hlast : Nat.toDigits 10 (digitValue c) = [c] := by
      rw [Nat.toDigits_of_lt_base (digitValue_lt hc), digitChar_digitValue hc]
    rw [stripZeros, List.dropWhile_append, ← stripZeros, ← stripZeros,
      ih fun c' hc' => hd c' (List.mem_append_left _ hc'), numeralValue_append_digit]
    by_cases hz : numeralValue ds = 0
    · -- every digit so far is a zero: the number starts at the last digit, unless it is one too
      have hzero : c = '0' ↔ digitValue c = 0 :=
        ⟨fun h => h ▸ rfl, fun h => by rw [← digitChar_digitValue hc, h]; rfl⟩
      simp only [hz, if_true, List.isEmpty_nil, Nat.zero_mul, Nat.zero_add, stripZeros,
        List.dropWhile_cons, List.dropWhile_nil, beq_iff_eq, hzero]
      by_cases hc0 : digitValue c = 0
      · simp [hc0]
      · simp [hc0, hlast]
    · -- the number has started: the last digit is appended to its digits
      have hpos : 0 < numeralValue ds := Nat.pos_of_ne_zero hz
      have hsum : numeralValue ds * 10 + digitValue c ≠ 0 := by omega
      rw [if_neg hz, if_neg hsum, Nat.mul_comm,
        ← Nat.toDigits_append_toDigits (by decide) hpos (digitValue_lt hc), hlast]
      simp [Nat.toDigits_ne_nil]

theorem toDigits_numeralValue {ds : List Char} (h : Numeral ds) (hpos : 0 < numeralValue ds) :
    Nat.toDigits 10 (numeralValue ds) = stripZeros ds := by
  rw [stripZeros_eq h.2.1, if_neg (by omega)]

theorem numeral_stripZeros {ds : List Char} (h : Numeral ds) (hpos : 0 < numeralValue ds) :
    Numeral (stripZeros ds) ∧ numeralValue (stripZeros ds) = numeralValue ds := by
  rw [← toDigits_numeralValue h hpos]
  exact ⟨numeral_toDigits _ h.2.2, numeralValue_toDigits _⟩

def normalizeWidths (w : Option (List Char × List Char)) : List Char × List Char :=
  Prod.map stripZeros stripZeros (w.getD (Nat.toDigits 10 128, Nat.toDigits 10 128))

/-- A base with its defaults written out and the leading zeros of its numbers dropped. -/
def ScalarForm.normalize : ScalarForm → ScalarForm
  | .uint w => .uint (some (stripZeros (w.getD (Nat.toDigits 10 256))))
  | .int w => .int (some (stripZeros (w.getD (Nat.toDigits 10 256))))
  | .address => .address
  | .bool => .bool
  | .function => .function
  | .byte => .bytesN (Nat.toDigits 10 1)
  | .bytesN k => .bytesN (stripZeros k)
  | .fixed w => .fixed (some (normalizeWidths w))
  | .ufixed w => .ufixed (some (normalizeWidths w))

def StaticForm.normalize : StaticForm → StaticForm
  | .scalar s => .scalar s.normalize
  | .array e k => .array e.normalize (stripZeros k)

def Form.normalize : Form → Form
  | .static d => .static d.normalize
  | .bytes => .bytes
  | .string => .string
  | .dynArray e => .dynArray e.normalize

theorem toList_toString (n : Nat) : (toString n).toList = Nat.toDigits 10 n := by
  rw [Nat.toString_eq_repr, Nat.toList_repr]

theorem intWidth_getD {w : Option (List Char)} (hw : ∀ ds, w = some ds → IntWidth ds) :
    IntWidth (w.getD (Nat.toDigits 10 256)) ∧
      numeralValue (w.getD (Nat.toDigits 10 256)) = (w.map numeralValue).getD 256 := by
  cases w with
  | none => exact ⟨⟨numeral_toDigits 256 (by decide), by simp⟩, numeralValue_toDigits 256⟩
  | some ds => exact ⟨hw ds rfl, rfl⟩

theorem decimalWidths_getD {w : Option (List Char × List Char)}
    (hw : ∀ m n, w = some (m, n) → DecimalWidths m n) :
    ∃ m n, w.getD (Nat.toDigits 10 128, Nat.toDigits 10 128) = (m, n) ∧ DecimalWidths m n ∧
      (ScalarForm.fixed w).type = .fixed (numeralValue m) (numeralValue n) ∧
      (ScalarForm.ufixed w).type = .ufixed (numeralValue m) (numeralValue n) := by
  cases w with
  | none =>
    refine ⟨_, _, rfl, ⟨numeral_toDigits 128 (by decide), numeral_toDigits 128 (by decide), ?_⟩,
      ?_, ?_⟩ <;> simp [ScalarForm.type]
  | some mn => exact ⟨mn.1, mn.2, rfl, hw mn.1 mn.2 rfl, rfl, rfl⟩

theorem ScalarForm.normalize_spec {s : ScalarForm} (hs : s.Valid) :
    s.normalize.Valid ∧ s.normalize.type = s.type ∧
      s.normalize.text = s.type.canonicalName.toList := by
  cases s with
  | uint w | int w =>
    have hw : ∀ ds, w = some ds → IntWidth ds := fun ds h => by
      subst h
      exact hs
    obtain ⟨⟨hnum, h8, hle, hmod⟩, hval⟩ := intWidth_getD hw
    obtain ⟨hnum', hval'⟩ := numeral_stripZeros hnum (by omega)
    have hdig := toDigits_numeralValue hnum (by omega)
    dsimp only [ScalarForm.normalize, ScalarForm.Valid, ScalarForm.type, ScalarForm.text,
      StaticType.canonicalName]
    rw [Option.map_some, Option.getD_some, hval', hval, String.toList_append, toList_toString,
      ← hval, hdig]
    exact ⟨⟨hnum', by omega, by omega, by omega⟩, rfl, rfl⟩
  | address | bool | function => exact ⟨trivial, rfl, rfl⟩
  | byte =>
    dsimp only [ScalarForm.normalize, ScalarForm.Valid, ScalarForm.type, ScalarForm.text,
      StaticType.canonicalName]
    rw [numeralValue_toDigits, String.toList_append, toList_toString]
    exact ⟨⟨numeral_toDigits 1 (by decide), le_refl 1, by decide⟩, rfl, rfl⟩
  | bytesN k =>
    obtain ⟨hnum, hpos, hle⟩ := hs
    obtain ⟨hnum', hval'⟩ := numeral_stripZeros hnum (by omega)
    dsimp only [ScalarForm.normalize, ScalarForm.Valid, ScalarForm.type, ScalarForm.text,
      StaticType.canonicalName]
    rw [hval', String.toList_append, toList_toString, toDigits_numeralValue hnum (by omega)]
    exact ⟨⟨hnum', hpos, hle⟩, rfl, rfl⟩
  | fixed w | ufixed w =>
    have hw : ∀ m n, w = some (m, n) → DecimalWidths m n := fun m n h => by
      subst h
      exact hs
    obtain ⟨m, n, hmn, ⟨hm, hn, hm0, hm8, hn0, hn8, hsum⟩, hfixed, hufixed⟩ := decimalWidths_getD hw
    obtain ⟨hm', hvm⟩ := numeral_stripZeros hm hm0
    obtain ⟨hn', hvn⟩ := numeral_stripZeros hn hn0
    have hnorm : normalizeWidths w = (stripZeros m, stripZeros n) := by
      rw [normalizeWidths, hmn]
      rfl
    dsimp only [ScalarForm.normalize]
    simp only [hnorm, hfixed, hufixed]
    dsimp only [ScalarForm.Valid, ScalarForm.type, ScalarForm.text, widthsText,
      StaticType.canonicalName]
    rw [hvm, hvn]
    refine ⟨⟨hm', hn', by omega, by omega, by omega, by omega, by omega⟩, rfl, ?_⟩
    simp only [String.toList_append, toList_toString, toDigits_numeralValue hm hm0,
      toDigits_numeralValue hn hn0, List.append_assoc]
    rfl

/-- A valid static descriptor, normalized, is a valid form of the same type and reads as its
canonical name. -/
theorem StaticForm.normalize_spec {w : StaticForm} (hv : w.Valid) :
    w.normalize.Valid ∧ w.normalize.type = w.type ∧
      w.normalize.text = w.type.canonicalName.toList := by
  induction w with
  | scalar s => exact ScalarForm.normalize_spec hv
  | array e k ih =>
    obtain ⟨hve, hk, hpos, hsize⟩ := hv
    obtain ⟨hv', htype, htext⟩ := ih hve
    obtain ⟨hk', hval⟩ := numeral_stripZeros hk (by omega)
    dsimp only [StaticForm.normalize, StaticForm.Valid, StaticForm.type, StaticForm.text,
      StaticType.canonicalName]
    rw [htype, hval, htext]
    refine ⟨⟨hv', hk', hpos, hsize⟩, rfl, ?_⟩
    simp [String.toList_append, toDigits_numeralValue hk (by omega)]

theorem StaticForm.count_normalize {w : StaticForm} (hv : w.Valid) :
    w.normalize.text.count '[' = w.text.count '[' := by
  induction w with
  | scalar s =>
    have hb : ('[').isAlphanum = false := by decide
    dsimp only [StaticForm.normalize, StaticForm.text]
    rw [List.count_eq_zero.2 (not_mem_text (ScalarForm.normalize_spec hv).1.lexical hb),
      List.count_eq_zero.2 (not_mem_text hv.lexical hb)]
  | array e k ih =>
    obtain ⟨hve, hk, hpos, -⟩ := hv
    have hb : ('[').isDigit = false := by decide
    dsimp only [StaticForm.normalize, StaticForm.text]
    simp only [List.count_append, List.count_cons, ih hve,
      List.count_eq_zero.2 (not_mem_of_numeral hk hb),
      List.count_eq_zero.2 (not_mem_of_numeral (numeral_stripZeros hk (by omega)).1 hb)]

theorem Form.normalize_spec {w : Form} (hv : w.Valid) :
    w.normalize.Valid ∧ w.normalize.type = w.type ∧
      w.normalize.text = w.type.canonicalName.toList ∧
      w.normalize.text.count '[' = w.text.count '[' := by
  cases w with
  | static d =>
    obtain ⟨hv', htype, htext⟩ := StaticForm.normalize_spec hv
    exact ⟨hv', congrArg AbiType.static htype, htext, StaticForm.count_normalize hv⟩
  | bytes | string => exact ⟨trivial, rfl, rfl, rfl⟩
  | dynArray e =>
    obtain ⟨hv', htype, htext⟩ := StaticForm.normalize_spec hv
    dsimp only [Form.normalize, Form.Valid, Form.type, Form.text, AbiType.canonicalName]
    refine ⟨hv', by rw [htype], by rw [htext, String.toList_append]; rfl, ?_⟩
    simp only [List.count_append, StaticForm.count_normalize hv]

/-- Canonical names are a fixpoint of resolution. -/
theorem canonicalName_fixpoint {d : String} {t : AbiType}
    (h : Registry.standard.search d = .ok t) :
    Registry.standard.search t.canonicalName = .ok t ∧
      (∃ w : Form, w.text = d.toList ∧ w.normalize.text = t.canonicalName.toList) ∧
      t.canonicalName.toList.count '[' = d.toList.count '[' := by
  obtain ⟨⟨w, hw, hv, rfl⟩, hdepth⟩ := search_eq_ok_iff.1 h
  obtain ⟨hv', htype, htext, hcount⟩ := Form.normalize_spec hv
  have hsame : w.type.canonicalName.toList.count '[' = d.toList.count '[' := by
    rw [← htext, hcount, hw]
  refine ⟨search_eq_ok_iff.2 ⟨⟨w.normalize, htext, hv', htype⟩, ?_⟩, ⟨w, hw, htext⟩, hsame⟩
  rw [hsame]
  exact hdepth

theorem canonicalName_fixpoint_sample :
    Registry.standard.search "uint08[02][]" = .ok (.dynArray (.array (.uint 8) 2)) ∧
      Registry.standard.search (AbiType.dynArray (.array (.uint 8) 2)).canonicalName =
        .ok (.dynArray (.array (.uint 8) 2)) := by
  have h : Registry.standard.search "uint08[02][]" = .ok (.dynArray (.array (.uint 8) 2)) := by
    rfl
  exact ⟨h, (canonicalName_fixpoint h).1⟩

example : (Form.dynArray (.array (.scalar (.uint (some ['0', '8']))) ['0', '2'])).normalize.text =
    "uint8[2][]".toList := by
  decide

end ContractAbi.Descriptor
