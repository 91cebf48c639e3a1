import BeanForge.Proofs.Agreement.Positions
import Mathlib.Algebra.Ring.Nat
/-!
# Class trees in postorder

A class tree is gone through for several purposes, and each time in the same order. Identical
classes can stand at different positions, so that the order is one of positions: every position of
the tree has one place in it, after all positions further down, and the classes that one class
declares keep their order together with all that is below them.
-/
namespace BeanForge.ClassModel

/-- One position comes before another in postorder. -/
inductive Before : List ℕ → List ℕ → Prop where
  /-- What stands below a class comes before the class. -/
  | descendant (i : ℕ) (p : List ℕ) : Before (i :: p) []
  /-- An earlier class of the same parent comes before a later one, each with what is below it. -/
  | sibling {i j : ℕ} (h : i < j) (p q : List ℕ) : Before (i :: p) (j :: q)
  /-- Inside of a class its own order counts. -/
  | inside (i : ℕ) {p q : List ℕ} (h : Before p q) : Before (i :: p) (i :: q)

lemma Before.asymm {p q : List ℕ} (h : Before p q) : ¬ Before q p := by
  intro hback
  induction h with
  | descendant i p => cases hback
  | sibling h p q =>
    cases hback with
    | sibling hback => exact Nat.lt_asymm h hback
    | inside _ _ => exact Nat.lt_irrefl _ h
  | inside i h ih =>
    cases hback with
    | sibling hback => exact Nat.lt_irrefl i hback
    | inside _ hback => exact ih hback

lemma Before.irrefl {p : List ℕ} : ¬ Before p p :=
  fun h => h.asymm h

/-- A list of classes goes through a tree in postorder: it has one class for each position of the
tree, and the positions are in order. -/
structure Covers (c : ClassModel) (walk : List ClassModel) (positions : List (List ℕ)) : Prop where
  at? : positions.map c.at? = walk.map some
  mem_iff : ∀ p, p ∈ positions ↔ (c.at? p).isSome
  nodup : positions.Nodup
  before_iff : ∀ (i j : ℕ) (p q : List ℕ), positions[i]? = some p → positions[j]? = some q →
    (Before p q ↔ i < j)

mutual

/-- The positions of the classes of a tree. The class itself comes last. -/
def positions : ClassModel → List (List ℕ)
  | ⟨_, _, _, _, classes, _, _, _⟩ => positionsFrom 0 classes ++ [[]]

/-- The positions of the classes of several trees, the first of which has an index. -/
def positionsFrom (i : ℕ) : List ClassModel → List (List ℕ)
  | [] => []
  | c :: cs => c.positions.map (i :: ·) ++ positionsFrom (i + 1) cs

end

lemma positionsFrom_eq_flatMap (i : ℕ) (cs : List ClassModel) :
    positionsFrom i cs = (cs.zipIdx i).flatMap fun x => x.1.positions.map (x.2 :: ·) := by
  induction cs generalizing i with
  | nil => rfl
  | cons c cs ih => rw [positionsFrom, ih, List.zipIdx_cons, List.flatMap_cons]

lemma positions_eq (c : ClassModel) :
    c.positions = (c.classes.zipIdx.flatMap fun x => x.1.positions.map (x.2 :: ·)) ++ [[]] := by
  obtain ⟨_, _, _, _, _, _, _, _⟩ := c
  rw [positions, positionsFrom_eq_flatMap]

lemma countAll_eq_sum (cs : List ClassModel) : countAll cs = (cs.map count).sum := by
  induction cs with
  | nil => rfl
  | cons c cs ih => rw [countAll, ih, List.map_cons, List.sum_cons]

/-- A class is counted after the classes in it. -/
lemma count_eq_sum (c : ClassModel) : c.count = 1 + (c.classes.map count).sum := by
  obtain ⟨_, _, _, _, _, _, _, _⟩ := c
  rw [count, countAll_eq_sum]

lemma nested_eq_flatMap_postorder (c : ClassModel) : c.nested = c.classes.flatMap postorder :=
  postorderAll_eq_flatMap c.classes

lemma postorder_eq_flatMap (c : ClassModel) : c.postorder = c.classes.flatMap postorder ++ [c] := by
  rw [postorder_eq, nested_eq_flatMap_postorder]

/-- The nested classes can be listed without the class itself. -/
lemma nested_eq_flatMap (c : ClassModel) :
    c.nested = c.classes.flatMap fun d => d.nested ++ [d] := by
  rw [nested_eq_flatMap_postorder]
  exact List.flatMap_congr fun d _ => postorder_eq d

lemma pairwise_snd_zipIdx {α : Type} (xs : List α) (i : ℕ) :
    (xs.zipIdx i).Pairwise fun x y => x.2 < y.2 := by
  induction xs generalizing i with
  | nil => exact .nil
  | cons x xs ih =>
    rw [List.zipIdx_cons, List.pairwise_cons]
    exact ⟨fun y hy => List.le_snd_of_mem_zipIdx hy, ih (i + 1)⟩

lemma pairwise_positions (c : ClassModel) : c.positions.Pairwise Before := by
  induction c using class_induction with
  | step c ih =>
    rw [positions_eq, List.pairwise_append, List.pairwise_flatMap]
    refine ⟨⟨fun x hx => ?_, ?_⟩, List.pairwise_singleton _ _, ?_⟩
    · have hclass := ih x.1 (List.fst_mem_of_mem_zipIdx hx)
      exact List.pairwise_map.mpr (hclass.imp (Before.inside x.2))
    · refine (pairwise_snd_zipIdx c.classes 0).imp fun hlt p hp q hq => ?_
      obtain ⟨p, _, rfl⟩ := List.mem_map.mp hp
      obtain ⟨q, _, rfl⟩ := List.mem_map.mp hq
      exact .sibling hlt p q
    · intro p hp q hq
      obtain ⟨x, _, hx⟩ := List.mem_flatMap.mp hp
      obtain ⟨p, _, rfl⟩ := List.mem_map.mp hx
      exact List.mem_singleton.mp hq ▸ .descendant x.2 p

lemma nodup_positions (c : ClassModel) : c.positions.Nodup := by
  refine c.pairwise_positions.imp ?_
  rintro p _ h rfl
  exact h.irrefl

/-- The places in the list are in the order of the positions. -/
lemma before_iff_lt (c : ClassModel) (i j : ℕ) (p q : List ℕ) (hp : c.positions[i]? = some p)
    (hq : c.positions[j]? = some q) : Before p q ↔ i < j := by
  obtain ⟨hi, rfl⟩ := List.getElem?_eq_some_iff.mp hp
  obtain ⟨hj, rfl⟩ := List.getElem?_eq_some_iff.mp hq
  have hordered := List.pairwise_iff_getElem.mp c.pairwise_positions
  refine ⟨fun h => ?_, hordered i j hi hj⟩
  by_contra hnot
  rcases Nat.eq_or_lt_of_not_lt hnot with rfl | hlt
  · exact h.irrefl
  · exact h.asymm (hordered j i hj hi hlt)

/-- What stands at the positions, one after the other, are the classes in postorder. -/
lemma map_at?_positions (c : ClassModel) : c.positions.map c.at? = c.postorder.map some := by
  induction c using class_induction with
  | step c ih =>
    have hclass : ∀ x ∈ c.classes.zipIdx,
        (x.1.positions.map (x.2 :: ·)).map c.at? = x.1.postorder.map some := by
      intro x hx
      rw [List.map_map, ← ih x.1 (List.fst_mem_of_mem_zipIdx hx)]
      refine List.map_congr_left fun p _ => ?_
      rw [Function.comp_apply, at?, List.mem_zipIdx_iff_getElem?.mp hx, Option.bind_some]
    rw [positions_eq, postorder_eq_flatMap, List.map_append, List.map_append, List.map_flatMap,
      List.map_flatMap, List.flatMap_congr hclass]
    congr 1
    conv_rhs => rw [← List.zipIdx_map_fst 0 c.classes, List.flatMap_map]

lemma cons_mem_positions_iff (c : ClassModel) (i : ℕ) (p : List ℕ) :
    i :: p ∈ c.positions ↔ ∃ d, c.classes[i]? = some d ∧ p ∈ d.positions := by
  rw [positions_eq, List.mem_append, List.mem_flatMap]
  constructor
  · rintro (⟨x, hx, hp⟩ | hp)
    · obtain ⟨q, hq, heq⟩ := List.mem_map.mp hp
      obtain ⟨rfl, rfl⟩ := List.cons.inj heq
      exact ⟨x.1, List.mem_zipIdx_iff_getElem?.mp hx, hq⟩
    · simp at hp
  · rintro ⟨d, hd, hp⟩
    exact .inl ⟨(d, i), List.mem_zipIdx_iff_getElem?.mpr hd, List.mem_map_of_mem hp⟩

lemma mem_positions_iff (c : ClassModel) (p : List ℕ) : p ∈ c.positions ↔ (c.at? p).isSome := by
  induction p generalizing c with
  | nil =>
    rw [positions_eq]
    simp [at?]
  | cons i p ih =>
    rw [cons_mem_positions_iff, at?, Option.isSome_bind]
    cases c.classes[i]? <;> simp [ih]

theorem covers_postorder (c : ClassModel) : Covers c c.postorder c.positions where
  at? := c.map_at?_positions
  mem_iff := c.mem_positions_iff
  nodup := c.nodup_positions
  before_iff := c.before_iff_lt

end BeanForge.ClassModel
