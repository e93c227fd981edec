import ContractAbi.Proofs.CanonicalName
import ContractAbi.Abi.Method
/-!
Method signatures, read and written. A signature `name(d₁,…,dₖ)` is an identifier followed by the
descriptors of the arguments between parentheses, separated by commas. Descriptors are written in
letters, digits and brackets (`Descriptor.Form.mem_text`) and identifiers in letters, digits, `_`
and `$`, so in such a text the first opening parenthesis ends the name, the last closing one ends
the list, and the commas cut the list into exactly the descriptors. Parsing accepts exactly these
texts (`MethodSelector.ofSignature_eq_ok_iff`). The signature it builds from the canonical names
of the argument types is read back to the same selector, and argument lists and methods are read
back from their canonical texts in the same way (`signature_parse_canonical`).
-/

namespace ContractAbi

namespace Descriptor

theorem StaticForm.mem_text {w : StaticForm} (hv : w.Valid) {c : Char} (hc : c ∈ w.text) :
    c.isAlphanum = true ∨ c = '[' ∨ c = ']' := by
  induction w with
  | scalar s => exact .inl (isAlphanum_of_mem_text hv.lexical c hc)
  | array e k ih =>
    obtain ⟨hve, hk, -, -⟩ := hv
    simp only [StaticForm.text, List.mem_append, List.mem_cons, List.not_mem_nil, or_false] at hc
    rcases hc with (hc | rfl | hc) | rfl
    · exact ih hve hc
    · exact .inr (.inl rfl)
    · exact .inl (by simp [Char.isAlphanum, hk.2.1 c hc])
    · exact .inr (.inr rfl)

theorem Form.mem_text {w : Form} (hv : w.Valid) {c : Char} (hc : c ∈ w.text) :
    c.isAlphanum = true ∨ c = '[' ∨ c = ']' := by
  cases w with
  | static d => exact StaticForm.mem_text hv hc
  | bytes =>
    dsimp only [Form.text] at hc
    simp only [String.reduceToList, List.mem_cons, List.not_mem_nil, or_false] at hc
    rcases hc with rfl | rfl | rfl | rfl | rfl <;> exact .inl rfl
  | string =>
    dsimp only [Form.text] at hc
    simp only [String.reduceToList, List.mem_cons, List.not_mem_nil, or_false] at hc
    rcases hc with rfl | rfl | rfl | rfl | rfl | rfl <;> exact .inl rfl
  | dynArray e =>
    dsimp only [Form.text] at hc
    simp only [List.mem_append, List.mem_cons, List.not_mem_nil, or_false] at hc
    rcases hc with hc | rfl | rfl
    · exact StaticForm.mem_text hv hc
    · exact .inr (.inl rfl)
    · exact .inr (.inr rfl)

theorem mem_of_search {r : Registry} {d : String} {t : AbiType} (h : r.search d = .ok t)
    {c : Char} (hc : c ∈ d.toList) : c.isAlphanum = true ∨ c = '[' ∨ c = ']' := by
  obtain ⟨⟨w, hw, hv, -⟩, -⟩ := searchWith_sound r _ h
  exact Form.mem_text hv (hw ▸ hc)

theorem not_mem_of_search {r : Registry} {d : String} {t : AbiType} (h : r.search d = .ok t) :
    ',' ∉ d.toList ∧ '(' ∉ d.toList ∧ ')' ∉ d.toList := by
  refine ⟨fun hc => ?_, fun hc => ?_, fun hc => ?_⟩ <;>
    · have h' := mem_of_search h hc
      revert h'
      decide

theorem exists_of_forall₂ {r : Registry} {ds : List String} {ts : List AbiType}
    (h : List.Forall₂ (fun d t => r.search d = .ok t) ds ts) {d : String} (hd : d ∈ ds) :
    ∃ t, r.search d = .ok t :=
  Except.forall_of_mapM_eq_ok (Except.mapM_eq_ok.2 h) d hd

theorem not_mem_of_forall₂ {r : Registry} {ds : List String} {ts : List AbiType}
    (h : List.Forall₂ (fun d t => r.search d = .ok t) ds ts) {d : String} (hd : d ∈ ds) :
    ',' ∉ d.toList ∧ '(' ∉ d.toList ∧ ')' ∉ d.toList :=
  not_mem_of_search (exists_of_forall₂ h hd).choose_spec

theorem search_empty (r : Registry) : r.search "" = .error (.malformedDescriptor "") := rfl

theorem ne_empty_of_search {r : Registry} {d : String} {t : AbiType} (h : r.search d = .ok t) :
    d ≠ "" := by
  rintro rfl
  rw [search_empty] at h
  cases h

theorem search_canonicalName {r : Registry} {d : String} {t : AbiType} (h : r.search d = .ok t) :
    Registry.standard.search t.canonicalName = .ok t := by
  obtain ⟨⟨w, hw, hv, rfl⟩, hdepth⟩ := searchWith_sound r _ h
  obtain ⟨hv', htype, htext, hcount⟩ := Form.normalize_spec hv
  refine search_eq_ok_iff.2 ⟨⟨w.normalize, htext, hv', htype⟩, ?_⟩
  rw [← htext, hcount, hw]
  exact hdepth

theorem canonicalNames_of_forall₂ {r : Registry} {ds : List String} {ts : List AbiType}
    (h : List.Forall₂ (fun d t => r.search d = .ok t) ds ts) :
    List.Forall₂ (fun d t => Registry.standard.search d = .ok t)
      (ts.map AbiType.canonicalName) ts := by
  induction h with
  | nil => exact .nil
  | cons hd _ ih => exact .cons (search_canonicalName hd) ih

end Descriptor

open Descriptor

theorem not_mem_intercalate_comma {c : Char} (hc : c ≠ ',') :
    ∀ {ls : List (List Char)}, (∀ l ∈ ls, c ∉ l) → c ∉ [','].intercalate ls
  | [], _ => by simp
  | [l], h => by simpa using h l (by simp)
  | l :: l' :: ls, h => by
    rw [List.intercalate_cons_of_ne_nil (by simp)]
    simp only [List.mem_append, List.mem_singleton, not_or]
    exact ⟨⟨h l (by simp), hc⟩,
      not_mem_intercalate_comma hc fun l hl => h l (List.mem_cons_of_mem _ hl)⟩

theorem toList_comma_intercalate (ds : List String) :
    (",".intercalate ds).toList = [','].intercalate (ds.map String.toList) := by
  rw [String.toList_intercalate]
  rfl

namespace ParameterList

theorem ofSignature_eq_ok {r : Registry} {s : String} {L : ParameterList} :
    ofSignature r s = .ok L ↔
      ∃ ds : List String, s = ",".intercalate ds ∧
        List.Forall₂ (fun d t => r.search d = .ok t) ds L.types := by
  constructor
  · intro h
    unfold ofSignature at h
    split_ifs at h with hs
    · -- the empty text is the empty list
      cases h
      exact ⟨[], by simpa using hs, .nil⟩
    · obtain ⟨ts, hts, rfl⟩ := Except.map_eq_ok.1 h
      refine ⟨(s.toList.splitOn ',').map String.ofList, ?_, ?_⟩
      · apply String.ext
        rw [toList_comma_intercalate, List.map_map]
        simp only [Function.comp_def, String.toList_ofList, List.map_id']
        exact (List.intercalate_splitOn ',').symm
      · rw [List.forall₂_map_left_iff]
        refine (Except.mapM_eq_ok.1 hts).imp fun p t hp => ?_
        split_ifs at hp
        exact hp
  · rintro ⟨ds, rfl, hds⟩
    cases ds with
    | nil =>
      obtain ⟨types⟩ := L
      obtain rfl : types = [] := List.forall₂_nil_left_iff.1 hds
      rfl
    | cons d ds =>
      have hd : d ≠ "" := ne_empty_of_search (exists_of_forall₂ hds List.mem_cons_self).choose_spec
      have hne : (",".intercalate (d :: ds)).isEmpty = false := by
        rw [Bool.eq_false_iff, ne_eq, String.isEmpty_iff, ← String.toList_inj,
          toList_comma_intercalate]
        rcases ds with _ | ⟨d', ds⟩
        · simpa [String.toList_inj] using hd
        · simp [List.intercalate_cons_of_ne_nil]
      -- no piece holds a comma, so cutting at the commas gives the pieces back
      have hsplit : (",".intercalate (d :: ds)).toList.splitOn ',' = (d :: ds).map String.toList := by
        rw [toList_comma_intercalate]
        refine List.splitOn_intercalate ',' ?_ (by simp)
        intro l hl
        obtain ⟨d', hd', rfl⟩ := List.mem_map.1 hl
        exact (not_mem_of_forall₂ hds hd').1
      unfold ofSignature
      rw [if_neg (by simp [hne])]
      refine Except.map_eq_ok.2 ⟨L.types, ?_, rfl⟩
      rw [hsplit, Except.mapM_eq_ok, List.forall₂_map_left_iff]
      refine hds.imp fun d' t ht => ?_
      rw [if_neg (by simpa [String.isEmpty_iff] using ne_empty_of_search ht), String.ofList_toList]
      exact ht

theorem ofSignature_signature {r : Registry} {s : String} {L : ParameterList}
    (h : ofSignature r s = .ok L) : ofSignature Registry.standard L.signature = .ok L := by
  obtain ⟨ds, -, hds⟩ := ofSignature_eq_ok.1 h
  exact ofSignature_eq_ok.2 ⟨L.types.map AbiType.canonicalName, rfl, canonicalNames_of_forall₂ hds⟩

end ParameterList

def signatureText (name : String) (args : List String) : String :=
  name ++ "(" ++ ",".intercalate args ++ ")"

theorem mem_of_isIdentifier {name : String} (h : isIdentifier name = true) {c : Char}
    (hc : c ∈ name.toList) : c.isAlphanum = true ∨ c = '_' ∨ c = '$' := by
  unfold isIdentifier at h
  split at h
  · contradiction
  · rename_i c₀ cs hname
    rw [hname] at hc
    simp only [Bool.and_eq_true, Bool.or_eq_true, beq_iff_eq, List.all_eq_true] at h
    rcases List.mem_cons.1 hc with rfl | hc
    · rcases h.1 with (ha | hu) | hd
      · exact .inl (by simp [Char.isAlphanum, ha])
      · exact .inr (.inl hu)
      · exact .inr (.inr hd)
    · simpa [or_assoc] using h.2 c hc

theorem not_mem_of_isIdentifier {name : String} (h : isIdentifier name = true) :
    '(' ∉ name.toList := fun hc => by
  have h' := mem_of_isIdentifier h hc
  revert h'
  decide

theorem splitSignature_eq_ok {sig name args : String} :
    splitSignature sig = .ok (name, args) ↔
      sig = name ++ "(" ++ args ++ ")" ∧ isIdentifier name = true ∧ '(' ∉ args.toList ∧
        ')' ∉ args.toList := by
  constructor
  · intro h
    simp only [splitSignature] at h
    split at h
    · cases h
    · rename_i i hi
      split_ifs at h with hlast hbad
      cases h
      simp only [Bool.or_eq_true, Bool.not_eq_true', not_or, Bool.not_eq_false,
        List.contains_iff_mem] at hbad hlast
      obtain ⟨⟨hid, hopen⟩, hclose⟩ := hbad
      -- the text after the first opening parenthesis ends with the closing one
      obtain ⟨ys, hys⟩ := List.getLast?_eq_some_iff.1 (by simpa using hlast)
      refine ⟨?_, hid, by simpa using hopen, by simpa using hclose⟩
      apply String.ext
      simp only [String.toList_append, String.toList_ofList, hys, List.dropLast_concat]
      conv_lhs => rw [idxOf?_eq_some hi, hys]
      simp
  · rintro ⟨rfl, hid, hopen, hclose⟩
    have hidx : (name.toList ++ '(' :: (args.toList ++ [')'])).idxOf? '(' = some name.toList.length := by
      rw [List.idxOf?_eq_some_iff]
      refine ⟨by simp, by simp, fun j hj => ?_⟩
      rw [List.getElem_append_left hj]
      exact fun he => not_mem_of_isIdentifier hid (he ▸ List.getElem_mem hj)
    have htext : (name ++ "(" ++ args ++ ")").toList = name.toList ++ '(' :: (args.toList ++ [')']) := by
      simp [String.toList_append]
    have hdrop : (name.toList ++ '(' :: (args.toList ++ [')'])).drop (name.toList.length + 1) =
        args.toList ++ [')'] := by
      simp
    dsimp only [splitSignature]
    rw [htext, hidx]
    dsimp only
    rw [List.take_left, hdrop]
    simp [hid, hopen, hclose]

theorem splitSignature_signatureText {name : String} {ds : List String}
    (hid : isIdentifier name = true) (hds : ∀ d ∈ ds, '(' ∉ d.toList ∧ ')' ∉ d.toList) :
    splitSignature (signatureText name ds) = .ok (name, ",".intercalate ds) := by
  have hno : ∀ c, c ≠ ',' → (∀ d ∈ ds, c ∉ d.toList) → c ∉ (",".intercalate ds).toList :=
    fun c hc h => by
      rw [toList_comma_intercalate]
      exact not_mem_intercalate_comma hc fun l hl => by
        obtain ⟨d, hd, rfl⟩ := List.mem_map.1 hl
        exact h d hd
  exact splitSignature_eq_ok.2 ⟨rfl, hid, hno '(' (by decide) fun d hd => (hds d hd).1,
    hno ')' (by decide) fun d hd => (hds d hd).2⟩

namespace MethodSelector

theorem ofTypes_eq {name : String} (hid : isIdentifier name = true) (ts : List AbiType) :
    ofTypes name ts = .ok ⟨signatureText name (ts.map AbiType.canonicalName),
      functionSelector (signatureText name (ts.map AbiType.canonicalName))⟩ := by
  simp [ofTypes, hid, signatureText]

/-- A signature is accepted exactly when it is an identifier followed by descriptors that the
standard registry resolves, between parentheses and separated by commas. The selector holds the
signature rebuilt from the canonical names of their types, and the selector of that text. -/
theorem ofSignature_eq_ok_iff {s : String} {sel : MethodSelector} :
    ofSignature s = .ok sel ↔
      ∃ (name : String) (ds : List String) (ts : List AbiType),
        s = signatureText name ds ∧ isIdentifier name = true ∧
          List.Forall₂ (fun d t => Registry.standard.search d = .ok t) ds ts ∧
          sel = ⟨signatureText name (ts.map AbiType.canonicalName),
            functionSelector (signatureText name (ts.map AbiType.canonicalName))⟩ := by
  constructor
  · intro h
    obtain ⟨⟨name, args⟩, hsplit, h₁⟩ := Except.bind_eq_ok.1 h
    obtain ⟨L, hL, h₂⟩ := Except.bind_eq_ok.1 h₁
    obtain ⟨rfl, hid, -, -⟩ := splitSignature_eq_ok.1 hsplit
    obtain ⟨ds, rfl, hds⟩ := ParameterList.ofSignature_eq_ok.1 hL
    rw [ofTypes_eq hid] at h₂
    cases h₂
    exact ⟨name, ds, L.types, rfl, hid, hds, rfl⟩
  · rintro ⟨name, ds, ts, rfl, hid, hds, rfl⟩
    have hparens : ∀ d ∈ ds, '(' ∉ d.toList ∧ ')' ∉ d.toList := fun d hd =>
      (not_mem_of_forall₂ hds hd).2
    have hL : ParameterList.ofSignature Registry.standard (",".intercalate ds) = .ok ⟨ts⟩ :=
      ParameterList.ofSignature_eq_ok.2 ⟨ds, rfl, hds⟩
    simp only [ofSignature, splitSignature_signatureText hid hparens, Except.ok_bind, hL]
    exact ofTypes_eq hid ts

theorem name_eq {name : String} (hid : isIdentifier name = true) (args : List String)
    (id : MethodId) : name = (⟨signatureText name args, id⟩ : MethodSelector).name := by
  have hpre : ∀ c ∈ name.toList, (c != '(') = true := fun c hc => by
    simpa using fun h : c = '(' => not_mem_of_isIdentifier hid (h ▸ hc)
  apply String.ext
  simp only [MethodSelector.name, signatureText, String.toList_append, String.toList_ofList,
    List.append_assoc]
  rw [List.takeWhile_append_of_pos hpre]
  simp

end MethodSelector

theorem Method.parse_eq_ok {r : Registry} {sig outs : String} {m : Method}
    (h : Method.parse r sig outs = .ok m) :
    ∃ name, isIdentifier name = true ∧
      m.selector = ⟨signatureText name (m.inputs.types.map AbiType.canonicalName),
        functionSelector (signatureText name (m.inputs.types.map AbiType.canonicalName))⟩ ∧
      (∃ args, splitSignature sig = .ok (name, args) ∧
        ParameterList.ofSignature r args = .ok m.inputs) ∧
      ParameterList.ofSignature r outs = .ok m.outputs := by
  obtain ⟨⟨name, args⟩, hsplit, h₁⟩ := Except.bind_eq_ok.1 h
  obtain ⟨ins, hins, h₂⟩ := Except.bind_eq_ok.1 h₁
  obtain ⟨outsL, houts, h₃⟩ := Except.bind_eq_ok.1 h₂
  obtain ⟨-, hid, -, -⟩ := splitSignature_eq_ok.1 hsplit
  obtain ⟨sel, hsel, h₄⟩ := Except.bind_eq_ok.1 h₃
  rw [MethodSelector.ofTypes_eq hid] at hsel
  cases hsel
  cases Except.pure_eq_ok.1 h₄
  exact ⟨name, hid, rfl, ⟨args, hsplit, hins⟩, houts⟩

theorem Method.parse_signature {r : Registry} {sig outs : String} {m : Method}
    (h : Method.parse r sig outs = .ok m) :
    Method.parse Registry.standard m.signature m.outputs.signature = .ok m := by
  obtain ⟨⟨sig', id⟩, ins, outsL⟩ := m
  obtain ⟨name, hid, hsel, ⟨args, -, hins⟩, houts⟩ := Method.parse_eq_ok h
  obtain ⟨ds, -, hds⟩ := ParameterList.ofSignature_eq_ok.1 hins
  have hcanon := canonicalNames_of_forall₂ hds
  have hparens : ∀ d ∈ ins.types.map AbiType.canonicalName, '(' ∉ d.toList ∧ ')' ∉ d.toList :=
    fun d hd => (not_mem_of_forall₂ hcanon hd).2
  dsimp only at hsel
  cases hsel
  simp only [Method.parse, Method.signature, splitSignature_signatureText hid hparens,
    Except.ok_bind]
  rw [show ",".intercalate (ins.types.map AbiType.canonicalName) = ins.signature from rfl,
    ParameterList.ofSignature_signature hins, Except.ok_bind,
    ParameterList.ofSignature_signature houts, Except.ok_bind]
  simp only [Method.make, MethodSelector.ofTypes_eq hid, Except.ok_bind]
  rfl

/-- Signature parsing is exact and canonical. -/
theorem signature_parse_canonical :
    (∀ s : String, (∃ sel, MethodSelector.ofSignature s = .ok sel) ↔
      ∃ (name : String) (ds : List String), s = signatureText name ds ∧
        isIdentifier name = true ∧ ∀ d ∈ ds, ∃ t, Registry.standard.search d = .ok t) ∧
    (∀ (s : String) (sel : MethodSelector), MethodSelector.ofSignature s = .ok sel →
      ∃ (name : String) (ds : List String) (ts : List AbiType), s = signatureText name ds ∧
        List.Forall₂ (fun d t => Registry.standard.search d = .ok t) ds ts ∧
        sel.signature = signatureText name (ts.map AbiType.canonicalName) ∧ sel.name = name ∧
        sel.id = functionSelector sel.signature ∧
        MethodSelector.ofSignature sel.signature = .ok sel) ∧
    (∀ (r : Registry) (s : String) (L : ParameterList), ParameterList.ofSignature r s = .ok L →
      ParameterList.ofSignature Registry.standard L.signature = .ok L) ∧
    (∀ (r : Registry) (sig outs : String) (m : Method), Method.parse r sig outs = .ok m →
      Method.parse Registry.standard m.signature m.outputs.signature = .ok m) := by
  refine ⟨fun s => ⟨?_, ?_⟩, fun s sel h => ?_, fun _ _ _ => ParameterList.ofSignature_signature,
    fun _ _ _ _ => Method.parse_signature⟩
  · rintro ⟨sel, h⟩
    obtain ⟨name, ds, ts, rfl, hid, hds, -⟩ := MethodSelector.ofSignature_eq_ok_iff.1 h
    exact ⟨name, ds, rfl, hid, fun d hd => exists_of_forall₂ hds hd⟩
  · rintro ⟨name, ds, rfl, hid, hds⟩
    obtain ⟨ts, hts⟩ := Except.mapM_ok_of_forall hds
    exact ⟨_, MethodSelector.ofSignature_eq_ok_iff.2
      ⟨name, ds, ts, rfl, hid, Except.mapM_eq_ok.1 hts, rfl⟩⟩
  · obtain ⟨name, ds, ts, rfl, hid, hds, rfl⟩ := MethodSelector.ofSignature_eq_ok_iff.1 h
    refine ⟨name, ds, ts, rfl, hds, rfl, (MethodSelector.name_eq hid _ _).symm, rfl, ?_⟩
    exact MethodSelector.ofSignature_eq_ok_iff.2
      ⟨name, ts.map AbiType.canonicalName, ts, rfl, hid, canonicalNames_of_forall₂ hds, rfl⟩

end ContractAbi
