import ContractAbi.Contract.Basic
import Mathlib.Data.List.Induction
import Mathlib.Data.List.Pairwise
/-!
The method table of a contract. `insertMethod` keeps the table in strictly increasing order of
selector, compared byte by byte with each byte as an unsigned number, and a method replaces the
one with its selector. A contract built by adding methods one after another therefore holds, for
each selector, the last method added with it and nothing else (`mem_build`). Lookup by selector
finds that method (`method?_build`), lookup by name the method of that name with the smallest
selector (`function?_eq_some_iff`), and the table does not depend on the order in which methods
with distinct selectors were added (`build_perm`).
-/

namespace ContractAbi

namespace Bytes

theorem compareLex_eq_compare (a b : Bytes) : compareLex a b = compare a b := by
  induction a generalizing b with
  | nil => cases b <;> rfl
  | cons x xs ih =>
    cases b with
    | nil => rfl
    | cons y ys =>
      have hbyte : compare x.toNat y.toNat = compare x y := by
        simp only [compare, compareOfLessAndEq, UInt8.lt_iff_toNat_lt, UInt8.toNat_inj]
      rw [compareLex, hbyte, List.compare_cons_cons, ← ih ys]
      cases compare x y <;> rfl

theorem compareLex_eq_eq {a b : Bytes} : compareLex a b = .eq ↔ a = b := by
  rw [compareLex_eq_compare]
  exact Std.LawfulEqCmp.compare_eq_iff_eq

theorem compareLex_eq_gt {a b : Bytes} : compareLex a b = .gt ↔ compareLex b a = .lt := by
  rw [compareLex_eq_compare, compareLex_eq_compare]
  exact Std.OrientedCmp.gt_iff_lt

theorem compareLex_lt_trans {a b c : Bytes} (hab : compareLex a b = .lt)
    (hbc : compareLex b c = .lt) : compareLex a c = .lt := by
  rw [compareLex_eq_compare] at hab hbc ⊢
  exact Std.TransCmp.lt_trans hab hbc

theorem compareLex_eq_lt_iff {a b : Bytes} : compareLex a b = .lt ↔ List.Lex (· < ·) a b := by
  rw [compareLex_eq_compare]
  induction a generalizing b with
  | nil => cases b <;> simp
  | cons x xs ih =>
    cases b with
    | nil => simp
    | cons y ys =>
      rw [List.compare_cons_cons, Ordering.then_eq_lt, List.cons_lex_cons_iff, ← ih,
        Std.compare_eq_lt, Std.LawfulEqCmp.compare_eq_iff_eq]

end Bytes

theorem ByteVec.bytes_inj {n : Nat} {a b : ByteVec n} : a.bytes = b.bytes ↔ a = b := by
  cases a
  cases b
  simp

namespace Method

def Before (m n : Method) : Prop := Bytes.compareLex m.id.bytes n.id.bytes = .lt

theorem Before.trans {m n k : Method} (hmn : m.Before n) (hnk : n.Before k) : m.Before k :=
  Bytes.compareLex_lt_trans hmn hnk

theorem Before.asymm {m n : Method} (hmn : m.Before n) : ¬n.Before m := fun hnm => by
  have hgt := Bytes.compareLex_eq_gt.2 hnm
  rw [Before] at hmn
  rw [hmn] at hgt
  cases hgt

theorem Before.id_ne {m n : Method} (h : m.Before n) : m.id ≠ n.id := fun hid => by
  rw [Before, hid, Bytes.compareLex_eq_eq.2 rfl] at h
  cases h

theorem before_iff_lex {m n : Method} : m.Before n ↔ List.Lex (· < ·) m.id.bytes n.id.bytes :=
  Bytes.compareLex_eq_lt_iff

end Method

section Keyed

variable {α κ : Type} {key : α → κ} {l : List α}

theorem eq_of_key_eq (hd : l.Pairwise fun a b => key a ≠ key b) {x y : α} (hx : x ∈ l)
    (hy : y ∈ l) (h : key x = key y) : x = y := by
  have : Std.Symm fun a b : α => key a ≠ key b := ⟨fun _ _ h => Ne.symm h⟩
  by_contra hne
  exact hd.forall hx hy hne h

theorem find?_key_eq_some [BEq κ] [LawfulBEq κ] (hd : l.Pairwise fun a b => key a ≠ key b)
    {k : κ} {x : α} :
    l.find? (key · == k) = some x ↔ x ∈ l ∧ key x = k := by
  constructor
  · intro h
    exact ⟨List.mem_of_find?_eq_some h, by simpa using List.find?_some h⟩
  · rintro ⟨hx, rfl⟩
    obtain ⟨y, hy⟩ : ∃ y, l.find? (key · == key x) = some y :=
      Option.isSome_iff_exists.1 (List.find?_isSome.2 ⟨x, hx, by simp⟩)
    have hyx : key y = key x := by simpa using List.find?_some hy
    rw [hy, eq_of_key_eq hd (List.mem_of_find?_eq_some hy) hx hyx]

end Keyed

section Insert

variable {m : Method} {ms : List Method}

theorem mem_insertMethod (h : ms.Pairwise Method.Before) {x : Method} :
    x ∈ insertMethod m ms ↔ x = m ∨ x ∈ ms ∧ x.id ≠ m.id := by
  induction ms with
  | nil => simp [insertMethod]
  | cons n ns ih =>
    obtain ⟨hn, hns⟩ := List.pairwise_cons.1 h
    cases hc : Bytes.compareLex m.id.bytes n.id.bytes with
    | lt =>
      -- `m` goes in front: every method of the table has a larger selector
      have hfresh : ∀ y ∈ n :: ns, y.id ≠ m.id := fun y hy => by
        rcases List.mem_cons.1 hy with rfl | hy
        · exact (Method.Before.id_ne hc).symm
        · exact (Method.Before.id_ne (Method.Before.trans hc (hn y hy))).symm
      simp only [insertMethod, hc, List.mem_cons]
      constructor
      · rintro (rfl | rfl | hx)
        · exact .inl rfl
        · exact .inr ⟨.inl rfl, hfresh _ List.mem_cons_self⟩
        · exact .inr ⟨.inr hx, hfresh x (List.mem_cons_of_mem n hx)⟩
      · rintro (rfl | ⟨hx, -⟩)
        · exact .inl rfl
        · exact .inr hx
    | eq =>
      -- `m` replaces `n`, which has its selector; the methods after `n` have larger ones
      have hid : n.id = m.id := (ByteVec.bytes_inj.1 (Bytes.compareLex_eq_eq.1 hc)).symm
      simp only [insertMethod, hc, List.mem_cons]
      constructor
      · rintro (rfl | hx)
        · exact .inl rfl
        · exact .inr ⟨.inr hx, hid ▸ (Method.Before.id_ne (hn x hx)).symm⟩
      · rintro (rfl | ⟨rfl | hx, hne⟩)
        · exact .inl rfl
        · exact absurd hid hne
        · exact .inr hx
    | gt =>
      -- `n` stays in front and `m` goes into the rest
      have hne : n.id ≠ m.id := Method.Before.id_ne (Bytes.compareLex_eq_gt.1 hc)
      simp only [insertMethod, hc, List.mem_cons, ih hns]
      constructor
      · rintro (rfl | rfl | ⟨hx, hxm⟩)
        · exact .inr ⟨.inl rfl, hne⟩
        · exact .inl rfl
        · exact .inr ⟨.inr hx, hxm⟩
      · rintro (rfl | ⟨rfl | hx, hxm⟩)
        · exact .inr (.inl rfl)
        · exact .inl rfl
        · exact .inr (.inr ⟨hx, hxm⟩)

theorem pairwise_insertMethod (h : ms.Pairwise Method.Before) :
    (insertMethod m ms).Pairwise Method.Before := by
  induction ms with
  | nil => simp [insertMethod]
  | cons n ns ih =>
    obtain ⟨hn, hns⟩ := List.pairwise_cons.1 h
    cases hc : Bytes.compareLex m.id.bytes n.id.bytes with
    | lt =>
      simp only [insertMethod, hc]
      refine List.pairwise_cons.2 ⟨fun y hy => ?_, h⟩
      rcases List.mem_cons.1 hy with rfl | hy
      · exact hc
      · exact Method.Before.trans hc (hn y hy)
    | eq =>
      have hbytes : m.id.bytes = n.id.bytes := Bytes.compareLex_eq_eq.1 hc
      simp only [insertMethod, hc]
      exact List.pairwise_cons.2 ⟨fun y hy => by rw [Method.Before, hbytes]; exact hn y hy, hns⟩
    | gt =>
      simp only [insertMethod, hc]
      refine List.pairwise_cons.2 ⟨fun y hy => ?_, ih hns⟩
      rcases (mem_insertMethod hns).1 hy with rfl | ⟨hy, -⟩
      · exact Bytes.compareLex_eq_gt.1 hc
      · exact hn y hy

end Insert

namespace Contract

theorem address_foldl (ms : List Method) (c : Contract) :
    (ms.foldl withFunction c).address = c.address := by
  induction ms generalizing c with
  | nil => rfl
  | cons m ms ih => exact ih _

theorem pairwise_foldl (ms : List Method) {c : Contract} (h : c.methods.Pairwise Method.Before) :
    (ms.foldl withFunction c).methods.Pairwise Method.Before := by
  induction ms generalizing c with
  | nil => exact h
  | cons m ms ih => exact ih (pairwise_insertMethod h)

theorem pairwise_build (a : Address) (ms : List Method) :
    (ms.foldl withFunction (empty a)).methods.Pairwise Method.Before :=
  pairwise_foldl ms List.Pairwise.nil

theorem ids_distinct_build (a : Address) (ms : List Method) :
    (ms.foldl withFunction (empty a)).methods.Pairwise fun m n => m.id ≠ n.id :=
  (pairwise_build a ms).imp Method.Before.id_ne

theorem mem_build (a : Address) (ms : List Method) (x : Method) :
    x ∈ (ms.foldl withFunction (empty a)).methods ↔ (ms.filter (·.id == x.id)).getLast? = some x := by
  induction ms using List.reverseRecOn with
  | nil => simp [empty]
  | append_singleton ms m ih =>
    rw [List.foldl_append, List.foldl_cons, List.foldl_nil, withFunction]
    dsimp only
    rw [mem_insertMethod (pairwise_build a ms), ih, List.filter_append]
    -- the last method added decides its own selector and leaves the others alone
    by_cases hm : m.id = x.id
    · simp only [List.filter_cons, hm, beq_self_eq_true, if_true, List.filter_nil,
        List.getLast?_append, List.getLast?_singleton, Option.some_or, Option.some.injEq]
      constructor
      · rintro (rfl | ⟨-, hne⟩)
        · rfl
        · exact absurd rfl hne
      · rintro rfl
        exact .inl rfl
    · have hbeq : (m.id == x.id) = false := by simpa using hm
      simp only [List.filter_cons, hbeq, Bool.false_eq_true, if_false, List.filter_nil,
        List.append_nil]
      constructor
      · rintro (rfl | ⟨h, -⟩)
        · exact absurd rfl hm
        · exact h
      · intro h
        exact .inr ⟨h, Ne.symm hm⟩

theorem method?_build (a : Address) (ms : List Method) (id : MethodId) :
    (ms.foldl withFunction (empty a)).method? id = (ms.filter (·.id == id)).getLast? := by
  have hd := ids_distinct_build a ms
  cases hlast : (ms.filter (·.id == id)).getLast? with
  | some x =>
    have hx : x.id = id := by
      simpa using List.mem_filter.1 (List.mem_of_getLast? hlast) |>.2
    subst hx
    exact (find?_key_eq_some hd).2 ⟨(mem_build a ms x).2 hlast, rfl⟩
  | none =>
    cases hfind : (ms.foldl withFunction (empty a)).method? id with
    | none => rfl
    | some y =>
      -- a method found in the table is the last one added with its selector
      obtain ⟨hy, rfl⟩ := (find?_key_eq_some hd).1 hfind
      rw [(mem_build a ms y).1 hy] at hlast
      cases hlast

/-- In a table in increasing order of selector, lookup by name finds the method of that name
with the smallest selector. -/
theorem function?_eq_some_iff {c : Contract} (h : c.methods.Pairwise Method.Before)
    {name : String} {m : Method} :
    c.function? name = some m ↔
      m ∈ c.methods ∧ m.name = name ∧ ∀ n ∈ c.methods, n.name = name → n ≠ m → m.Before n := by
  have hfirst : ∀ {m}, c.function? name = some m →
      m ∈ c.methods ∧ m.name = name ∧ ∀ n ∈ c.methods, n.name = name → n ≠ m → m.Before n := by
    intro m hm
    obtain ⟨hname, pre, post, hsplit, hpre⟩ := List.find?_eq_some_iff_append.1 hm
    refine ⟨List.mem_of_find?_eq_some hm, by simpa using hname, fun n hn hnn hne => ?_⟩
    -- no method before `m` has the name, so `n` comes after it
    rw [hsplit] at h hn
    rcases List.mem_append.1 hn with hn | hn
    · simpa [hnn] using hpre n hn
    · rcases List.mem_cons.1 hn with rfl | hn
      · exact absurd rfl hne
      · exact (List.pairwise_cons.1 (List.pairwise_append.1 h).2.1).1 n hn
  refine ⟨hfirst, fun ⟨hm, hname, hmin⟩ => ?_⟩
  obtain ⟨m', hm'⟩ : ∃ m', c.function? name = some m' :=
    Option.isSome_iff_exists.1 (List.find?_isSome.2 ⟨m, hm, by simpa using hname⟩)
  obtain ⟨hmem', hname', hmin'⟩ := hfirst hm'
  by_cases heq : m' = m
  · rw [hm', heq]
  · exact absurd (hmin' m hm hname (Ne.symm heq)) (hmin m' hmem' hname' heq).asymm

theorem mem_build_of_distinct (a : Address) {ms : List Method}
    (hd : ms.Pairwise fun m n => m.id ≠ n.id) (x : Method) :
    x ∈ (ms.foldl withFunction (empty a)).methods ↔ x ∈ ms := by
  have hrev : ms.reverse.Pairwise fun m n => m.id ≠ n.id :=
    List.pairwise_reverse.2 (hd.imp fun h => Ne.symm h)
  rw [mem_build, List.getLast?_filter, find?_key_eq_some hrev, List.mem_reverse]
  exact and_iff_left rfl

theorem method?_build_of_distinct (a : Address) {ms : List Method}
    (hd : ms.Pairwise fun m n => m.id ≠ n.id) (id : MethodId) :
    (ms.foldl withFunction (empty a)).method? id = ms.find? (·.id == id) := by
  have hbuilt := ids_distinct_build a ms
  cases hfind : ms.find? (·.id == id) with
  | some x =>
    obtain ⟨hx, rfl⟩ := (find?_key_eq_some hd).1 hfind
    exact (find?_key_eq_some hbuilt).2 ⟨(mem_build_of_distinct a hd x).2 hx, rfl⟩
  | none =>
    cases hm : (ms.foldl withFunction (empty a)).method? id with
    | none => rfl
    | some y =>
      obtain ⟨hy, rfl⟩ := (find?_key_eq_some hbuilt).1 hm
      rw [(find?_key_eq_some hd).2 ⟨(mem_build_of_distinct a hd y).1 hy, rfl⟩] at hfind
      cases hfind

theorem build_perm (a : Address) {ms ms' : List Method} (hp : ms'.Perm ms)
    (hd : ms.Pairwise fun m n => m.id ≠ n.id) :
    ms'.foldl withFunction (empty a) = ms.foldl withFunction (empty a) := by
  have hd' : ms'.Pairwise fun m n => m.id ≠ n.id := hd.perm hp.symm fun h => Ne.symm h
  have hnodup : ∀ l : List Method, (l.foldl withFunction (empty a)).methods.Nodup := fun l =>
    (pairwise_build a l).imp fun hb heq => Method.Before.id_ne hb (congrArg Method.id heq)
  have hperm : (ms'.foldl withFunction (empty a)).methods.Perm
      (ms.foldl withFunction (empty a)).methods := by
    refine (List.perm_ext_iff_of_nodup (hnodup ms') (hnodup ms)).2 fun x => ?_
    rw [mem_build_of_distinct a hd', mem_build_of_distinct a hd]
    exact hp.mem_iff
  -- two tables in increasing order with the same methods are the same list
  have hmethods := hperm.eq_of_pairwise (fun _ _ _ _ hab hba => absurd hba hab.asymm)
    (pairwise_build a ms') (pairwise_build a ms)
  have haddr := (address_foldl ms' (empty a)).trans (address_foldl ms (empty a)).symm
  cases hc : ms'.foldl withFunction (empty a)
  cases hc' : ms.foldl withFunction (empty a)
  rw [hc, hc'] at hmethods haddr
  dsimp only at hmethods haddr
  rw [hmethods, haddr]

end Contract

/-- The method table of a contract built by adding methods one after another. -/
theorem method_table_of_withFunction (a : Address) (ms : List Method) :
    let c := ms.foldl Contract.withFunction (Contract.empty a)
    c.methods.Pairwise (fun m n => List.Lex (· < ·) m.id.bytes n.id.bytes) ∧
      (∀ x, x ∈ c.methods ↔ (ms.filter (·.id == x.id)).getLast? = some x) ∧
      (∀ id, c.method? id = (ms.filter (·.id == id)).getLast?) ∧
      (∀ name m, c.function? name = some m ↔
        m ∈ c.methods ∧ m.name = name ∧
          ∀ n ∈ c.methods, n.name = name → n ≠ m → List.Lex (· < ·) m.id.bytes n.id.bytes) ∧
      ∀ ms' : List Method, ms'.Perm ms → ms.Pairwise (fun m n => m.id ≠ n.id) →
        ms'.foldl Contract.withFunction (Contract.empty a) = c := by
  intro c
  have hsorted := Contract.pairwise_build a ms
  refine ⟨hsorted.imp Method.before_iff_lex.1, Contract.mem_build a ms,
    Contract.method?_build a ms, fun name m => ?_, fun ms' hp hd => Contract.build_perm a hp hd⟩
  rw [Contract.function?_eq_some_iff hsorted]
  simp only [Method.before_iff_lex]
  exact Iff.rfl

end ContractAbi
