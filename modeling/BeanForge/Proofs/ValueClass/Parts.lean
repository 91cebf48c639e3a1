import BeanForge.Proofs.Model.Postorder
import BeanForge.Proofs.ValueClass.Embedding
import BeanForge.ValueClass.Code
import Mathlib.Data.List.Perm.Basic
/-!
# What the header of a value class is made of

The header declares nested classes inside of each other, so that a class has two parts there, one
in front of its classes and one behind them. Every class of the tree is started once and finished
once, and the classes are finished in postorder.
-/
namespace BeanForge.ValueClass

namespace Part

def started? : Part → Option ClassModel
  | start _ c => some c
  | finish _ _ => none

def finished? : Part → Option ClassModel
  | start _ _ => none
  | finish _ c => some c

end Part

lemma partsAll_eq_flatMap (depth : ℕ) (cs : List ClassModel) :
    partsAll depth cs = cs.flatMap (parts depth) := by
  induction cs with
  | nil => rfl
  | cons c cs ih => rw [partsAll, ih, List.flatMap_cons]

lemma parts_eq (depth : ℕ) (c : ClassModel) :
    parts depth c =
      .start depth c :: c.classes.flatMap (parts (depth + 1)) ++ [.finish depth c] := by
  obtain ⟨_, _, _, _, _, _, _, _⟩ := c
  rw [parts, partsAll_eq_flatMap]

/-- Classes are finished in postorder, each once. -/
lemma finished_parts (depth : ℕ) (c : ClassModel) :
    (parts depth c).filterMap Part.finished? = c.postorder := by
  induction c using ClassModel.class_induction generalizing depth with
  | step c ih =>
    rw [parts_eq, ClassModel.postorder_eq_flatMap, List.cons_append, List.filterMap_cons,
      List.filterMap_append, List.filterMap_flatMap,
      List.flatMap_congr fun d hd => ih d hd (depth + 1)]
    rfl

/-- All classes are started, each once. -/
lemma started_parts (depth : ℕ) (c : ClassModel) :
    ((parts depth c).filterMap Part.started?).Perm c.postorder := by
  induction c using ClassModel.class_induction generalizing depth with
  | step c ih =>
    have hclasses : (c.classes.flatMap fun d =>
        (parts (depth + 1) d).filterMap Part.started?).Perm (c.classes.flatMap (·.postorder)) :=
      List.Perm.flatMap_left c.classes fun d hd => ih d hd (depth + 1)
    have hown : (parts depth c).filterMap Part.started? =
        c :: c.classes.flatMap fun d => (parts (depth + 1) d).filterMap Part.started? := by
      rw [parts_eq, List.cons_append, List.filterMap_cons, List.filterMap_append,
        List.filterMap_flatMap]
      exact congrArg (c :: ·) (List.append_nil _)
    rw [hown, ClassModel.postorder_eq_flatMap]
    exact (hclasses.cons c).trans (List.perm_append_singleton c _).symm

end BeanForge.ValueClass
