import BeanForge.FileTree
/-!
# Where paths lead

As there are no links, the names of a path alone say where it leads and what it passes on the
way: a dot stays, two dots go back, every other name goes on. Whether the path can be followed in
a tree is another matter. Two trees are compared place by place.
-/
namespace BeanForge.FileTree

/-- The place that a name leads to. -/
def step (here : Place) (name : String) : Place :=
  if name = "." then here
  else if name = ".." then here.dropLast
  else here ++ [name]

/-- The place that several names lead to. -/
def follow (here : Place) (names : List String) : Place :=
  names.foldl step here

/-- The place that a path leads to. -/
def place (t : FileTree) (path : String) : Place :=
  follow (t.start path) (FilePath.names path)

/-- Whether a path passes a place before its last name. -/
def Passes (t : FileTree) (path : String) (place : Place) : Prop :=
  ∃ passed, passed <+: (FilePath.names path).dropLast ∧ place = follow (t.start path) passed

/-- The same files and directories, seen from the same directory. -/
structure Same (t t' : FileTree) : Prop where
  current : t.current = t'.current
  find? : ∀ place, t.find? place = t'.find? place

/-- One tree turns into the other if nothing changes but what some paths lead to, and
directories that these paths pass are made where nothing was. -/
structure ChangedAtMost (paths : List String) (t t' : FileTree) : Prop where
  current : t'.current = t.current
  find? : ∀ place, (∀ path ∈ paths, place ≠ t.place path) →
    t'.find? place = t.find? place ∨
      (t.find? place = none ∧ t'.find? place = some .directory ∧ ∃ path ∈ paths, t.Passes path place)

end BeanForge.FileTree
