import BeanForge.FileTree.Way
import BeanForge.Proofs.Fallible
import BeanForge.Proofs.Files.Paths
import Mathlib.Data.List.Infix
/-!
# Following paths in a tree

What an operation on a path needs, said of places: the names before the last one lead through
directories, and the last one is a name for which there is room. All that matters of the tree on
the way are its directories, so an operation that keeps these keeps what can be reached.
-/
namespace BeanForge.FileTree

/-- Whether a name leads on from a place: dots always do, other names if they name a directory. -/
def Enterable (t : FileTree) (here : Place) (name : String) : Prop :=
  name = "." ∨ name = ".." ∨
    (name.utf8ByteSize ≤ maxName ∧ t.find? (here ++ [name]) = some .directory)

/-- Whether names lead from a place through directories. -/
def Walkable (t : FileTree) : Place → List String → Prop
  | _, [] => True
  | here, name :: names => t.Enterable here name ∧ Walkable t (step here name) names

lemma follow_append (here : Place) (xs ys : List String) :
    follow here (xs ++ ys) = follow (follow here xs) ys :=
  List.foldl_append

lemma walkable_append_iff (t : FileTree) (here : Place) (xs ys : List String) :
    t.Walkable here (xs ++ ys) ↔ t.Walkable here xs ∧ t.Walkable (follow here xs) ys := by
  induction xs generalizing here with
  | nil => simp [Walkable, follow]
  | cons x xs ih => simp [Walkable, ih, follow, and_assoc]

lemma Walkable.mono {t t' : FileTree} {here : Place} {names : List String}
    (h : t.Walkable here names)
    (hkept : ∀ place, t.find? place = some .directory → t'.find? place = some .directory) :
    t'.Walkable here names := by
  induction names generalizing here with
  | nil => trivial
  | cons name names ih =>
    exact ⟨h.1.imp_right (Or.imp_right fun hname => ⟨hname.1, hkept _ hname.2⟩), ih h.2⟩

lemma step_name {here : Place} {name : String} (hdot : name ≠ ".") (hdots : name ≠ "..") :
    step here name = here ++ [name] := by
  rw [step, if_neg hdot, if_neg hdots]

lemma enter_eq_ok_iff (t : FileTree) (here place : Place) (names : List String) :
    t.enter here names = .ok place ↔ t.Walkable here names ∧ place = follow here names := by
  induction names generalizing here with
  | nil => simp [enter, Walkable, follow, eq_comm]
  | cons name names ih =>
    rw [enter, Walkable, follow, List.foldl_cons, ← follow]
    by_cases hdot : name = "."
    · simp [hdot, ih, Enterable, step]
    by_cases hdots : name = ".."
    · simp [hdots, ih, Enterable, step]
    rw [if_neg hdot, if_neg hdots, step_name hdot hdots]
    by_cases hlong : maxName < name.utf8ByteSize
    · simp [hdot, hdots, hlong, Enterable, Nat.not_le.mpr hlong]
    · rw [if_neg hlong]
      rcases hfound : t.find? (here ++ [name]) with _ | (bytes | _)
      · simp [Enterable, hdot, hdots, hfound]
      · simp [Enterable, hdot, hdots, hfound]
      · simp [Enterable, hdot, hdots, hfound, ih, Nat.le_of_not_lt hlong]

lemma enter_concat_of_dots (t : FileTree) (here : Place) (names : List String) {last : String}
    (h : last = "." ∨ last = "..") :
    t.enter here (names ++ [last]) = (t.enter here names).map (step · last) := by
  induction names generalizing here with
  | nil => rcases h with rfl | rfl <;> rfl
  | cons name names ih =>
    rw [List.cons_append, enter, enter]
    split
    · exact ih here
    split
    · exact ih _
    split
    · rfl
    split
    · rfl
    · rfl
    · exact ih _

/-- A path that can be looked at: not empty, not too long, without the character that ends texts
of the system. -/
structure Fits (path : String) : Prop where
  noNul : '\x00' ∉ path.toList
  nonempty : path ≠ ""
  short : path.utf8ByteSize < maxPath

/-- Whether the last name of a path is the name of a file or directory, and no dots. -/
structure LastName (path name : String) : Prop where
  last : (FilePath.names path).getLast? = some name
  notDot : name ≠ "."
  notDots : name ≠ ".."

lemma LastName.names_eq {path name : String} (h : LastName path name) :
    FilePath.names path = (FilePath.names path).dropLast ++ [name] := by
  obtain ⟨hne, hlast⟩ := List.getLast?_eq_some_iff.mp h.last
  simp [hlast]

lemma LastName.place_eq {path name : String} (h : LastName path name) (t : FileTree) :
    t.place path = follow (t.start path) (FilePath.names path).dropLast ++ [name] := by
  rw [place, h.names_eq, follow_append, List.dropLast_concat]
  exact step_name h.notDot h.notDots

lemma lastName_append {ending : String} (h : FilePath.IsEnding ending) (base : String) :
    LastName (base ++ ending) (FilePath.innermost base ++ ending) := by
  obtain ⟨_, hdot, hdots⟩ := h.append_ne (FilePath.innermost base)
  exact ⟨by simp [FilePath.names_append h], hdot, hdots⟩

/-- Files with different endings to one base have different places. -/
lemma place_append_injective {ending ending' : String} (h : FilePath.IsEnding ending)
    (h' : FilePath.IsEnding ending') {t : FileTree} {base : String}
    (heq : t.place (base ++ ending) = t.place (base ++ ending')) : ending = ending' := by
  rw [(lastName_append h base).place_eq, (lastName_append h' base).place_eq,
    FilePath.names_append h, FilePath.names_append h'] at heq
  have hlast := List.append_inj_right' heq rfl
  simpa using hlast

lemma fits_of_locate {t : FileTree} {path : String} {l : Location} (h : t.locate path = .ok l) :
    Fits path := by
  by_cases hnul : '\x00' ∈ path.toList
  · simp [locate, hnul] at h
  by_cases hempty : path = ""
  · simp [locate, hempty] at h
  by_cases hlong : maxPath ≤ path.utf8ByteSize
  · simp [locate, hnul, hempty, hlong] at h
  exact ⟨hnul, hempty, Nat.lt_of_not_le hlong⟩

lemma locate_of_lastName (t : FileTree) {path name : String} (h : Fits path)
    (hname : LastName path name) :
    t.locate path =
      (t.enter (t.start path) (FilePath.names path).dropLast).map (Location.named · name) := by
  simp only [locate, h.noNul, h.nonempty, Nat.not_le.mpr h.short, hname.last, hname.notDot,
    hname.notDots, String.isEmpty_iff, if_false]
  cases t.enter (t.start path) (FilePath.names path).dropLast <;> rfl

/-- A path that ends in no name leads to a directory that it walks into. -/
lemma locate_of_no_lastName (t : FileTree) {path : String} (h : Fits path)
    (hname : ∀ name, ¬ LastName path name) :
    t.locate path = (t.enter (t.start path) (FilePath.names path)).map Location.reached := by
  simp only [locate, h.noNul, h.nonempty, Nat.not_le.mpr h.short, String.isEmpty_iff, if_false]
  rcases List.eq_nil_or_concat (FilePath.names path) with hnil | ⟨outer, last, hnames⟩
  · simp [hnil, enter]
    rfl
  · have hlast : last = "." ∨ last = ".." := by
      by_contra hnot
      obtain ⟨hdot, hdots⟩ := not_or.mp hnot
      exact hname last ⟨by simp [hnames], hdot, hdots⟩
    rw [List.concat_eq_append] at hnames
    rw [hnames, enter_concat_of_dots t _ _ hlast, List.getLast?_concat, List.dropLast_concat]
    rcases hlast with rfl | rfl <;> cases t.enter (t.start path) outer <;> rfl

theorem locate_eq_named_iff (t : FileTree) (path name : String) (directory : Place) :
    t.locate path = .ok (.named directory name) ↔
      Fits path ∧ LastName path name ∧
        t.Walkable (t.start path) (FilePath.names path).dropLast ∧
        directory = follow (t.start path) (FilePath.names path).dropLast := by
  constructor
  · intro h
    have hfits := fits_of_locate h
    by_cases hlast : ∃ last, LastName path last
    · obtain ⟨last, hlast⟩ := hlast
      rw [locate_of_lastName t hfits hlast, Fallible.map_eq_ok_iff] at h
      obtain ⟨place, hplace, heq⟩ := h
      cases heq
      exact ⟨hfits, hlast, (enter_eq_ok_iff ..).mp hplace⟩
    · rw [locate_of_no_lastName t hfits (not_exists.mp hlast), Fallible.map_eq_ok_iff] at h
      obtain ⟨_, _, heq⟩ := h
      cases heq
  · rintro ⟨hfits, hlast, hwalk⟩
    rw [locate_of_lastName t hfits hlast, (enter_eq_ok_iff ..).mpr hwalk]
    rfl

theorem locate_eq_reached_iff (t : FileTree) (path : String) (directory : Place) :
    t.locate path = .ok (.reached directory) ↔
      Fits path ∧ (∀ name, ¬ LastName path name) ∧
        t.Walkable (t.start path) (FilePath.names path) ∧ directory = t.place path := by
  constructor
  · intro h
    have hfits := fits_of_locate h
    by_cases hlast : ∃ last, LastName path last
    · obtain ⟨last, hlast⟩ := hlast
      rw [locate_of_lastName t hfits hlast, Fallible.map_eq_ok_iff] at h
      obtain ⟨_, _, heq⟩ := h
      cases heq
    · rw [locate_of_no_lastName t hfits (not_exists.mp hlast), Fallible.map_eq_ok_iff] at h
      obtain ⟨place, hplace, heq⟩ := h
      cases heq
      exact ⟨hfits, not_exists.mp hlast, (enter_eq_ok_iff ..).mp hplace⟩
  · rintro ⟨hfits, hlast, hwalk⟩
    rw [locate_of_no_lastName t hfits hlast, (enter_eq_ok_iff ..).mpr hwalk]
    rfl

lemma lookIn_eq_ok_iff (t : FileTree) (directory : Place) (name : String)
    (found : Option FileEntry) :
    t.lookIn directory name = .ok found ↔
      name.utf8ByteSize ≤ maxName ∧ found = t.find? (directory ++ [name]) := by
  rw [lookIn, Fallible.guard_eq_ok_iff, Nat.not_lt]
  simp [eq_comm]

theorem isDirectory_iff (t : FileTree) (path : String) :
    t.isDirectory path ↔ Fits path ∧ t.Walkable (t.start path) (FilePath.names path) := by
  constructor
  · intro h
    rw [isDirectory] at h
    split at h
    · rename_i directory hlocate
      obtain ⟨hfits, _, hwalk, _⟩ := (locate_eq_reached_iff ..).mp hlocate
      exact ⟨hfits, hwalk⟩
    · rename_i directory name hlocate
      obtain ⟨hfits, hlast, hwalk, rfl⟩ := (locate_eq_named_iff ..).mp hlocate
      split at h
      · rename_i hfound
        obtain ⟨hshort, hdirectory⟩ := (lookIn_eq_ok_iff ..).mp hfound
        refine ⟨hfits, ?_⟩
        rw [hlast.names_eq, walkable_append_iff]
        exact ⟨hwalk, .inr (.inr ⟨hshort, hdirectory.symm⟩), trivial⟩
      · contradiction
    · contradiction
  · rintro ⟨hfits, hwalk⟩
    by_cases hlast : ∃ name, LastName path name
    · obtain ⟨name, hlast⟩ := hlast
      rw [hlast.names_eq, walkable_append_iff] at hwalk
      obtain ⟨hwalk, hname, _⟩ := hwalk
      have hlocate := (locate_eq_named_iff t path name _).mpr ⟨hfits, hlast, hwalk, rfl⟩
      have hfound := (hname.resolve_left hlast.notDot).resolve_left hlast.notDots
      have hlook := (lookIn_eq_ok_iff t _ name _).mpr ⟨hfound.1, hfound.2.symm⟩
      rw [isDirectory, hlocate]
      simp only [hlook]
    · have hlocate := (locate_eq_reached_iff t path _).mpr
        ⟨hfits, not_exists.mp hlast, hwalk, rfl⟩
      rw [isDirectory, hlocate]

end BeanForge.FileTree
