import ContractAbi.Abi.Error
import Mathlib.Data.List.Forall2
/-!
Results of steps that may fail. A chain of steps succeeds when each step does, and a step applied
to every element of a list succeeds when it does on each element; these readings let the codec
proofs take a computation apart without unfolding the monad.
-/

namespace Except
variable {ε α β : Type}

@[simp] theorem ok_bind {a : α} {f : α → Except ε β} : (Except.ok a >>= f) = f a := rfl

theorem bind_eq_ok {x : Except ε α} {f : α → Except ε β} {b : β} :
    x >>= f = .ok b ↔ ∃ a, x = .ok a ∧ f a = .ok b := by
  cases x <;> simp [bind, Except.bind]

theorem bind_eq_error {x : Except ε α} {f : α → Except ε β} {e : ε} :
    x >>= f = .error e ↔ x = .error e ∨ ∃ a, x = .ok a ∧ f a = .error e := by
  cases x <;> simp [bind, Except.bind]

theorem map_eq_ok {x : Except ε α} {f : α → β} {b : β} :
    x.map f = .ok b ↔ ∃ a, x = .ok a ∧ f a = b := by
  cases x <;> simp [Except.map]

theorem map_eq_error {x : Except ε α} {f : α → β} {e : ε} :
    x.map f = .error e ↔ x = .error e := by
  cases x <;> simp [Except.map]

@[simp] theorem pure_eq_ok {a b : α} : (pure a : Except ε α) = .ok b ↔ a = b := by
  simp [pure, Except.pure]

@[simp] theorem throw_ne_ok {e : ε} {b : α} : (throw e : Except ε α) ≠ .ok b := by
  simp [throw, throwThe, MonadExceptOf.throw]

theorem mapM_eq_ok {f : α → Except ε β} : ∀ {l : List α} {bs : List β},
    l.mapM f = .ok bs ↔ List.Forall₂ (fun a b => f a = .ok b) l bs
  | [], bs => by cases bs <;> simp [pure, Except.pure]
  | a :: l, bs => by
    cases bs with
    | nil => simp [List.mapM_cons, bind_eq_ok, pure, Except.pure]
    | cons b bs => simp [List.mapM_cons, bind_eq_ok, pure, Except.pure, mapM_eq_ok]

theorem mapM_eq_error {f : α → Except ε β} {e : ε} : ∀ {l : List α},
    l.mapM f = .error e → ∃ a ∈ l, f a = .error e
  | [], h => by simp [pure, Except.pure] at h
  | a :: l, h => by
    rw [List.mapM_cons, bind_eq_error] at h
    rcases h with h | ⟨b, -, h⟩
    · exact ⟨a, List.mem_cons_self, h⟩
    · rw [bind_eq_error] at h
      rcases h with h | ⟨bs, -, h⟩
      · obtain ⟨a', ha', h'⟩ := mapM_eq_error h
        exact ⟨a', List.mem_cons_of_mem a ha', h'⟩
      · simp [pure, Except.pure] at h

theorem mapM_ok_of_forall {f : α → Except ε β} : ∀ {l : List α},
    (∀ a ∈ l, ∃ b, f a = .ok b) → ∃ bs, l.mapM f = .ok bs
  | [], _ => ⟨[], rfl⟩
  | a :: l, h => by
    obtain ⟨b, hb⟩ := h a List.mem_cons_self
    obtain ⟨bs, hbs⟩ := mapM_ok_of_forall fun a' ha' => h a' (List.mem_cons_of_mem a ha')
    exact ⟨b :: bs, by simp [List.mapM_cons, hb, hbs, bind, Except.bind, pure, Except.pure]⟩

theorem forall_of_mapM_eq_ok {f : α → Except ε β} {l : List α} {bs : List β}
    (h : l.mapM f = .ok bs) : ∀ a ∈ l, ∃ b, f a = .ok b := by
  have hall := mapM_eq_ok.1 h
  clear h
  induction hall with
  | nil => intro a ha; cases ha
  | cons hab _ ih =>
    intro a ha
    rcases List.mem_cons.1 ha with rfl | ha
    · exact ⟨_, hab⟩
    · exact ih a ha

/-- Every error the computation may end with satisfies `p`. -/
def ErrorsIn (p : ε → Prop) (x : Except ε α) : Prop := ∀ e, x = .error e → p e

@[simp] theorem errorsIn_ok {p : ε → Prop} {a : α} : ErrorsIn p (.ok a) := fun _ h => nomatch h

@[simp] theorem errorsIn_error {p : ε → Prop} {e : ε} : ErrorsIn p (.error e : Except ε α) ↔ p e :=
  ⟨fun h => h e rfl, fun h _ he => Except.error.inj he ▸ h⟩

@[simp] theorem errorsIn_pure {p : ε → Prop} {a : α} : ErrorsIn p (pure a : Except ε α) :=
  errorsIn_ok

@[simp] theorem errorsIn_ite {p : ε → Prop} {c : Prop} [Decidable c] {x y : Except ε α} :
    ErrorsIn p (if c then x else y) ↔ (c → ErrorsIn p x) ∧ (¬c → ErrorsIn p y) := by
  split_ifs with h <;> simp [h]

theorem ErrorsIn.bind {p : ε → Prop} {x : Except ε α} {f : α → Except ε β} (hx : ErrorsIn p x)
    (hf : ∀ a, x = .ok a → ErrorsIn p (f a)) : ErrorsIn p (x >>= f) := by
  intro e h
  rcases bind_eq_error.1 h with h | ⟨a, ha, h⟩
  · exact hx e h
  · exact hf a ha e h

theorem ErrorsIn.map {p : ε → Prop} {x : Except ε α} {f : α → β} (hx : ErrorsIn p x) :
    ErrorsIn p (x.map f) :=
  fun e h => hx e (map_eq_error.1 h)

theorem ErrorsIn.mono {p q : ε → Prop} {x : Except ε α} (hx : ErrorsIn p x) (h : ∀ e, p e → q e) :
    ErrorsIn q x :=
  fun e he => h e (hx e he)

theorem errorsIn_mapM {p : ε → Prop} {f : α → Except ε β} {l : List α}
    (h : ∀ a ∈ l, ErrorsIn p (f a)) : ErrorsIn p (l.mapM f) := by
  intro e he
  obtain ⟨a, ha, hfa⟩ := mapM_eq_error he
  exact h a ha e hfa

end Except
