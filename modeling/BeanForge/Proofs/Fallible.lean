import Mathlib.Data.List.Forall2
import Mathlib.Tactic.Lemma
/-!
# Computations that may fail

When a sequence of steps succeeds, and what each of its steps has then established. `Reports` says
that a computation meets the errors of a list in their order and stops at the first; it is put
together step by step, as the computation is.
-/
namespace BeanForge.Fallible

variable {ε α β : Type}

@[simp] lemma error_bind (e : ε) (f : α → Except ε β) : (Except.error e >>= f) = .error e := rfl

@[simp] lemma ok_bind (a : α) (f : α → Except ε β) : (Except.ok a >>= f) = f a := rfl

lemma bind_eq_ok_iff {x : Except ε α} {f : α → Except ε β} {b : β} :
    x >>= f = .ok b ↔ ∃ a, x = .ok a ∧ f a = .ok b := by
  cases x with
  | error e => simp
  | ok a => simp [bind, Except.bind]

lemma pure_eq_ok_iff {a b : α} : (pure a : Except ε α) = .ok b ↔ b = a := by
  simp [pure, Except.pure, eq_comm]

/-- A step that stops where a rule is broken goes on where it is kept. -/
lemma guard_eq_ok_iff {c : Prop} [Decidable c] {e : ε} {x : Except ε α} {a : α} :
    (if c then .error e else x) = .ok a ↔ ¬ c ∧ x = .ok a := by
  by_cases h : c <;> simp [h]

lemma map_eq_ok_iff {f : α → β} {x : Except ε α} {b : β} :
    x.map f = .ok b ↔ ∃ a, x = .ok a ∧ f a = b := by
  cases x <;> simp [Except.map]

lemma mapError_eq_ok_iff {ε' : Type} {f : ε → ε'} {x : Except ε α} {a : α} :
    x.mapError f = .ok a ↔ x = .ok a := by
  cases x <;> constructor <;> intro h <;> cases h <;> rfl

lemma elim_error_eq_ok_iff {e : ε} {o : Option α} {a : α} :
    o.elim (.error e) Except.ok = .ok a ↔ o = some a := by
  cases o <;> simp

lemma isSome_mapM_iff (f : α → Option β) (xs : List α) :
    (xs.mapM f).isSome ↔ ∀ x ∈ xs, (f x).isSome := by
  induction xs with
  | nil => simp
  | cons x xs ih =>
    rw [List.mapM_cons, List.forall_mem_cons, ← ih]
    cases f x <;> cases xs.mapM f <;> simp

lemma mapM_cons_eq_some_iff {f : α → Option β} {x : α} {xs : List α} {ys : List β} :
    (x :: xs).mapM f = some ys ↔
      ∃ y rest, f x = some y ∧ xs.mapM f = some rest ∧ ys = y :: rest := by
  rw [List.mapM_cons]
  cases f x <;> cases xs.mapM f <;> simp [eq_comm]

lemma mapM_congr {f g : α → Option β} {xs : List α} (h : ∀ x ∈ xs, f x = g x) :
    xs.mapM f = xs.mapM g := by
  induction xs with
  | nil => rfl
  | cons x xs ih =>
    obtain ⟨hx, hxs⟩ := List.forall_mem_cons.mp h
    rw [List.mapM_cons, List.mapM_cons, hx, ih hxs]

lemma exists_mem_of_mapM_eq_some {f : α → Option β} {xs : List α} {ys : List β}
    (h : xs.mapM f = some ys) {x : α} (hx : x ∈ xs) : ∃ y ∈ ys, f x = some y := by
  induction xs generalizing ys with
  | nil => simp at hx
  | cons x' xs ih =>
    obtain ⟨y, rest, hy, hrest, rfl⟩ := mapM_cons_eq_some_iff.mp h
    rcases List.mem_cons.mp hx with rfl | hx
    · exact ⟨y, List.mem_cons_self, hy⟩
    · obtain ⟨z, hz, hfound⟩ := ih hrest hx
      exact ⟨z, List.mem_cons_of_mem y hz, hfound⟩

lemma forall₂_of_mapM_eq_some {f : α → Option β} {xs : List α} {ys : List β}
    (h : xs.mapM f = some ys) : List.Forall₂ (fun x y => f x = some y) xs ys := by
  induction xs generalizing ys with
  | nil =>
    obtain rfl : ys = [] := by simpa [eq_comm] using h
    exact .nil
  | cons x xs ih =>
    obtain ⟨y, rest, hy, hrest, rfl⟩ := mapM_cons_eq_some_iff.mp h
    exact .cons hy (ih hrest)

/-- What is undone one by one is undone in a whole list. -/
lemma mapM_map_eq_some {f : β → Option α} {g : α → β} {xs : List α}
    (h : ∀ x ∈ xs, f (g x) = some x) : (xs.map g).mapM f = some xs := by
  induction xs with
  | nil => rfl
  | cons x xs ih =>
    obtain ⟨hx, hxs⟩ := List.forall_mem_cons.mp h
    exact mapM_cons_eq_some_iff.mpr ⟨x, xs, hx, ih hxs, rfl⟩

/-- A filter is one that does not fail if its test never fails. -/
lemma filterM_eq_some {f : α → Option Bool} {P : α → Bool} {xs : List α}
    (h : ∀ x ∈ xs, f x = some (P x)) : xs.filterM f = some (xs.filter P) := by
  have hgo (kept : List α) : xs.filterAuxM f kept = some ((xs.filter P).reverse ++ kept) := by
    induction xs generalizing kept with
    | nil => rfl
    | cons x xs ih =>
      obtain ⟨hx, hxs⟩ := List.forall_mem_cons.mp h
      rw [List.filterAuxM, hx, Option.bind_eq_bind, Option.bind_some, ih hxs]
      cases hP : P x <;> simp [hP]
  rw [List.filterM, hgo]
  simp

/-- A computation that fails with the first of some errors, and succeeds if there are none. -/
def Reports (x : Except ε α) (errors : List ε) : Prop :=
  match x with
  | .ok _ => errors = []
  | .error e => errors.head? = some e

lemma reports_pure (a : α) : Reports (pure a : Except ε α) [] := rfl

lemma Reports.eq_error_iff {x : Except ε α} {errors : List ε} (h : Reports x errors) (e : ε) :
    x = .error e ↔ errors.head? = some e := by
  cases x with
  | ok a => simp [show errors = [] from h]
  | error e' => simp [show errors.head? = some e' from h]

lemma Reports.eq_nil {a : α} {errors : List ε} (h : Reports (.ok a : Except ε α) errors) :
    errors = [] := h

lemma head?_append_of_eq_some {e : ε} {errors : List ε} (h : errors.head? = some e)
    (more : List ε) : (errors ++ more).head? = some e := by
  rw [List.head?_append, h]
  rfl

/-- The errors of the first step come before those of the rest, which is not reached if there are
any. -/
lemma Reports.bind {x : Except ε α} {f : α → Except ε β} {errors more : List ε}
    (hx : Reports x errors) (hf : ∀ a, x = .ok a → Reports (f a) more) :
    Reports (x >>= f) (errors ++ more) := by
  cases x with
  | error e => exact head?_append_of_eq_some hx more
  | ok a =>
    rw [hx.eq_nil]
    exact hf a rfl

lemma Reports.map {x : Except ε α} {errors : List ε} (h : Reports x errors) (f : α → β) :
    Reports (x.map f) errors := by
  cases x <;> exact h

lemma Reports.mapError {ε' : Type} {x : Except ε α} {errors : List ε} (h : Reports x errors)
    (f : ε → ε') : Reports (x.mapError f) (errors.map f) := by
  cases x with
  | error e =>
    change (errors.map f).head? = some (f e)
    rw [List.head?_map, show errors.head? = some e from h]
    rfl
  | ok a =>
    rw [h.eq_nil]
    rfl

/-- A step that stops where a rule is broken has the error of the rule before those of the rest. -/
lemma Reports.guard {x : Except ε α} {errors : List ε} (h : Reports x errors) {c : Prop}
    [Decidable c] {b : Bool} (hc : c ↔ b = false) (e : ε) :
    Reports (if c then .error e else x) ((if b then [] else [e]) ++ errors) := by
  cases b with
  | false =>
    rw [if_pos (hc.mpr rfl)]
    rfl
  | true =>
    rw [if_neg (by simp [hc])]
    exact h

end BeanForge.Fallible
