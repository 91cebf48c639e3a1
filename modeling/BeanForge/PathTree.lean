import BeanForge.JsonPath
/-!
# Trees of path segments

The objects that a class has to reach are merged into one tree, in which each object appears
once and siblings keep the order in which they were first mentioned. Flattening the tree gives
the decode plan: every object is looked up once, after the object it is found in.

A tree is written as its first branch, what lies below it, and the branches after it. `paths`
is the view in which the operations are described: all segment lists that lead to a branch.
-/
namespace BeanForge

/-- Branches in the order of their first mention. -/
inductive PathTree where
  | empty
  | branch (key : String) (below rest : PathTree)
  deriving DecidableEq, Repr, Inhabited

/-- One step of a decode plan: the object found under `key` in the object that `parents`
lead to. -/
structure Lookup where
  parents : List String
  key : String
  deriving DecidableEq, Repr, Inhabited

/-- The segments that lead to the object a step looks up. -/
def Lookup.segments (l : Lookup) : List String :=
  l.parents ++ [l.key]

namespace PathTree

def chain : List String → PathTree
  | [] => empty
  | key :: keys => branch key (chain keys) empty

/-- Adds a path, sharing what the tree already has of it. -/
def insert : PathTree → List String → PathTree
  | tree, [] => tree
  | empty, key :: keys => chain (key :: keys)
  | branch k below rest, key :: keys =>
    if k = key then branch k (below.insert keys) rest
    else branch k below (rest.insert (key :: keys))

/-- The tree of several paths. -/
def ofPaths (paths : List (List String)) : PathTree :=
  paths.foldl insert empty

/-- Whether nothing was inserted yet. -/
def isEmpty : PathTree → Bool
  | empty => true
  | branch _ _ _ => false

/-- All segment lists that lead to a branch. -/
def paths : PathTree → List (List String)
  | empty => []
  | branch key below rest => [key] :: below.paths.map (key :: ·) ++ rest.paths

/-- The number of branches at the top. -/
def width : PathTree → Nat
  | empty => 0
  | branch _ _ rest => rest.width + 1

/-- What lies below the top branch of this key. -/
def child? : PathTree → String → Option PathTree
  | empty, _ => none
  | branch k below rest, key => if k = key then some below else rest.child? key

/-- Whether every branch of the first tree is in the second, with the same below it. -/
def within : PathTree → PathTree → Bool
  | empty, _ => true
  | branch key below rest, other =>
    (match other.child? key with
      | some found => below.width == found.width && below.within found
      | none => false) && rest.within other

/-- Equality of trees up to the order of siblings. -/
def same (a b : PathTree) : Bool :=
  a.width == b.width && a.within b

/-- The steps for all branches, those below a branch right after it. A branch without parents
is the start of a path and needs no step. -/
def stepsBelow : PathTree → List String → List Lookup
  | empty, _ => []
  | branch key below rest, parents =>
    (if parents.isEmpty then [] else [⟨parents, key⟩]) ++
      below.stepsBelow (parents ++ [key]) ++ rest.stepsBelow parents

/-- The steps that look up every object of the tree. -/
def steps (tree : PathTree) : List Lookup :=
  tree.stepsBelow []

@[simp] theorem insert_nil (tree : PathTree) : tree.insert [] = tree := by
  cases tree <;> rfl

@[simp] theorem paths_empty : empty.paths = [] := rfl

@[simp] theorem paths_branch (key : String) (below rest : PathTree) :
    (branch key below rest).paths = [key] :: below.paths.map (key :: ·) ++ rest.paths := rfl

end PathTree

/-- The steps a class needs to reach the values of all its properties, given their paths. -/
def decodePlan (jsonPaths : List String) : List Lookup :=
  (PathTree.ofPaths (jsonPaths.map fun path => (JsonPath.rooted path).1)).steps

end BeanForge
