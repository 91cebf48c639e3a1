import BeanForge.Proofs.Agreement.Renderings
import BeanForge.Proofs.Decoder.Dangling
import BeanForge.Proofs.Files.Independence
import BeanForge.Proofs.Rendering
/-!
# Classes in generated files

A class tree is gone through to count its classes, for the wrappers, for the parse functions and
for the definitions of the value classes. Each of the four ways is given by what it does at one
class with what it does at the classes in it, and all of them go through the tree in postorder. So
the number of classes in the summary of a run is the number of classes in the files: of value
classes, of wrappers, or of parse functions with the function for the root.
-/
namespace BeanForge

open Text SourceText

/-- A recursion that asks for nothing but the classes in the class at hand has one solution. -/
lemma ClassModel.eq_of_recursion {α : Type} (step : (ClassModel → α) → ClassModel → α)
    (hlocal : ∀ f g c, (∀ d ∈ c.classes, f d = g d) → step f c = step g c)
    {f g : ClassModel → α} (hf : ∀ c, f c = step f c) (hg : ∀ c, g c = step g c) : f = g := by
  funext c
  induction c using ClassModel.class_induction with
  | step c ih => rw [hf, hg, hlocal f g c ih]

namespace ValueClass

/-- The text of the definitions of a class alone. -/
def ownDefinitions (c : ClassModel) : String :=
  String.join (((definitions c).flatMap Definition.code).map (· ++ "\n"))

/-- What the renderer writes for the definitions of a class and of all classes nested in it. -/
def definitionsText (c : ClassModel) : String :=
  String.join ((allDefinitions c).map Definition.text)

/-- The source defines the classes in postorder. -/
lemma definitionsText_eq_join_postorder (c : ClassModel) :
    definitionsText c = String.join (c.postorder.map ownDefinitions) := by
  rw [definitionsText, definitions_eq_lines, allDefinitions, List.flatMap_assoc, lines_flatMap]
  rfl

/-- A class is defined after the classes in it. -/
lemma definitionsText_eq_join_classes (c : ClassModel) :
    definitionsText c = String.join (c.classes.map definitionsText) ++ ownDefinitions c := by
  have hclasses : c.classes.map definitionsText =
      c.classes.map fun d => String.join (d.postorder.map ownDefinitions) :=
    List.map_congr_left fun d _ => definitionsText_eq_join_postorder d
  rw [definitionsText_eq_join_postorder, ClassModel.postorder_eq_flatMap, List.map_append,
    List.map_flatMap, String.join_append, join_flatMap, hclasses]
  simp

end ValueClass

structure Traversals where
  count : ClassModel → ℕ
  /-- The classes that get a wrapper. -/
  wrapped : ClassModel → List ClassModel
  /-- The classes that get a parse function. -/
  parsed : ClassModel → List ClassModel
  /-- The definitions of the member functions. -/
  definitions : ClassModel → String

namespace Traversals

/-- What each of the four does at a class with what it does at the classes in it. -/
structure Recursive (t : Traversals) : Prop where
  count : ∀ c, t.count c = 1 + (c.classes.map t.count).sum
  wrapped : ∀ c, t.wrapped c = c.classes.flatMap t.wrapped ++ [c]
  parsed : ∀ c, t.parsed c = c.classes.flatMap fun d => t.parsed d ++ [d]
  definitions : ∀ c, t.definitions c =
    String.join (c.classes.map t.definitions) ++ ValueClass.ownDefinitions c

/-- The ways in which the renderers go through a class tree. -/
def rendered : Traversals :=
  ⟨ClassModel.count, ClassModel.postorder, ClassModel.nested, ValueClass.definitionsText⟩

lemma recursive_rendered : rendered.Recursive where
  count := ClassModel.count_eq_sum
  wrapped := ClassModel.postorder_eq_flatMap
  parsed := ClassModel.nested_eq_flatMap
  definitions := ValueClass.definitionsText_eq_join_classes

/-- The four recursions leave no choice. -/
theorem recursive_iff (t : Traversals) : t.Recursive ↔ t = rendered := by
  refine ⟨fun h => ?_, fun h => h ▸ recursive_rendered⟩
  have hcount : t.count = rendered.count :=
    ClassModel.eq_of_recursion (fun f c => 1 + (c.classes.map f).sum)
      (fun f g c hfg => by rw [List.map_congr_left hfg]) h.count recursive_rendered.count
  have hwrapped : t.wrapped = rendered.wrapped :=
    ClassModel.eq_of_recursion (fun f c => c.classes.flatMap f ++ [c])
      (fun f g c hfg => by rw [List.flatMap_congr hfg]) h.wrapped recursive_rendered.wrapped
  have hparsed : t.parsed = rendered.parsed :=
    ClassModel.eq_of_recursion (fun f c => c.classes.flatMap fun d => f d ++ [d])
      (fun f g c hfg => List.flatMap_congr fun d hd => by rw [hfg d hd])
      h.parsed recursive_rendered.parsed
  have hdefinitions : t.definitions = rendered.definitions :=
    ClassModel.eq_of_recursion
      (fun f c => String.join (c.classes.map f) ++ ValueClass.ownDefinitions c)
      (fun f g c hfg => by rw [List.map_congr_left hfg])
      h.definitions recursive_rendered.definitions
  obtain ⟨_, _, _, _⟩ := t
  cases hcount
  cases hwrapped
  cases hparsed
  cases hdefinitions
  rfl

end Traversals

/-- A class tree is gone through in one order, which has each of its positions once. -/
structure ClassModel.Traversed (c : ClassModel) : Prop where
  root_last : c.postorder = c.nested ++ [c]
  length_eq : c.postorder.length = c.count
  covers : Covers c c.postorder c.positions
  definitions_eq : ValueClass.definitionsText c =
    String.join (c.postorder.map ValueClass.ownDefinitions)

lemma ClassModel.traversed (c : ClassModel) : c.Traversed where
  root_last := c.postorder_eq
  length_eq := c.count_eq_length_postorder.symm
  covers := c.covers_postorder
  definitions_eq := ValueClass.definitionsText_eq_join_postorder c

/-- The files of a model show a number of value classes: every class of the tree is started and
finished once in the header, and has its definitions once in the source. -/
structure ValueClass.Shows (m : Model) (stem : String) (header source : OutputFile) (n : ℕ) :
    Prop where
  header_eq : header = .ofLines (stem ++ ".h") (headerCode m stem)
  started : ((parts 0 m.root).filterMap Part.started?).Perm m.root.postorder
  finished : (parts 0 m.root).filterMap Part.finished? = m.root.postorder
  source_eq : source = .ofLines (stem ++ ".cpp") (sourceCode m stem)
  length_eq : m.root.postorder.length = n

/-- The files of a model show a number of wrappers: every class of the tree has one declaration in
the header, and its definitions once in the source. -/
structure Wrapper.Shows (m : Model) (stem : String) (header source : OutputFile) (n : ℕ) :
    Prop where
  header_eq : header = .ofLines (stem ++ "object.h") (headerCode m stem)
  source_eq : source = .ofLines (stem ++ "object.cpp") (sourceCode m stem)
  length_eq : m.root.postorder.length = n

namespace Decoder

structure Decodes (table : List (String × String)) (result : String) (c : ClassModel)
    (f : DecodeFunction) : Prop where
  result_eq : f.result = result
  body_eq : body? table c = some f.body

/-- The files of a model show a number of functions: one that parses each nested class, and the one
that decodes the root class. -/
structure Shows (m : Model) (stem : String) (header source : OutputFile) (n : ℕ)
    (functions : List DecodeFunction) (entry : DecodeFunction) : Prop where
  parsed : List.Forall₂ (fun c => Decodes (functionTable m.root.nested) c.nestedName c)
    m.root.nested functions
  entry_decodes : Decodes (functionTable m.root.nested) m.root.name m.root entry
  entry_name : entry.name = factoryName m ++ "::fromJson"
  header_eq : header = .ofLines (stem ++ "jsonfactory.h") (headerCode m stem)
  source_eq : source = .ofLines (stem ++ "jsonfactory.cpp") (sourceCode m functions entry stem)
  length_eq : functions.length + 1 = n

lemma shows_of_functions {m : Model} {functions : List DecodeFunction} {entry : DecodeFunction}
    (hfunctions : parseFunctions? m = some functions) (hentry : entryFunction? m = some entry)
    (stem : String) :
    Shows m stem (.ofLines (stem ++ "jsonfactory.h") (headerCode m stem))
      (.ofLines (stem ++ "jsonfactory.cpp") (sourceCode m functions entry stem)) m.classCount
      functions entry := by
  obtain ⟨body, hbody, hmade⟩ := Option.bind_eq_some_iff.mp hentry
  obtain rfl := Option.some.inj hmade
  have hall := Fallible.forall₂_of_mapM_eq_some hfunctions
  have hlength : m.classCount = m.root.nested.length + 1 := by
    rw [Model.classCount, ClassModel.count_eq_length_postorder, ClassModel.postorder_eq,
      List.length_append, List.length_singleton]
  refine ⟨?_, ⟨rfl, hbody⟩, rfl, rfl, rfl, by rw [hlength, hall.length_eq]⟩
  refine hall.imp fun c f hf => ?_
  obtain ⟨_, _, _, hbody, rfl⟩ := parseFunction?_eq_some_iff.mp hf
  exact ⟨rfl, hbody⟩

end Decoder

/-- The files of a model show a number of classes, each in the way of the target. -/
def Model.Shows (m : Model) (stem : String) (header source : OutputFile) (n : ℕ) : Prop :=
  match m.target with
  | .bean => ValueClass.Shows m stem header source n
  | .qtbean => Wrapper.Shows m stem header source n
  | .factory => ∃ functions entry, Decoder.Shows m stem header source n functions entry

lemma Model.shows_of_files? {m : Model} {stem : String} {header source : OutputFile}
    (h : m.files? stem = some [header, source]) : m.Shows stem header source m.classCount := by
  have hlength := m.root.count_eq_length_postorder.symm
  rw [files?] at h
  rw [Shows]
  cases htarget : m.target with
  | bean =>
    rw [htarget, ValueClass.files_eq_code] at h
    cases h
    exact ⟨rfl, ValueClass.started_parts 0 m.root, ValueClass.finished_parts 0 m.root, rfl, hlength⟩
  | qtbean =>
    rw [htarget, Wrapper.files_eq_code] at h
    cases h
    exact ⟨rfl, rfl, hlength⟩
  | factory =>
    rw [htarget] at h
    have hcomplete := (Decoder.files?_isSome_iff m stem).mp (Option.isSome_of_eq_some h)
    obtain ⟨hfunctions, hentry⟩ := (Decoder.complete_iff_functions m).mp hcomplete
    obtain ⟨functions, hfunctions⟩ := Option.isSome_iff_exists.mp hfunctions
    obtain ⟨entry, hentry⟩ := Option.isSome_iff_exists.mp hentry
    rw [Decoder.files?_eq_code hfunctions hentry] at h
    cases h
    exact ⟨functions, entry, Decoder.shows_of_functions hfunctions hentry stem⟩

namespace Session

open FileTree

/-- A run succeeds if, and only if, both files can be read afterwards, and its summary then has
two files and as many classes as they show. -/
lemma on_generate_eq_ok_iff {m : Model} {stem : String} {header source : OutputFile}
    (h : m.files? stem = some [header, source]) (directory : String) (before : FileTree)
    (summary : Summary) :
    ((generate m stem directory).on before).1 = .ok summary ↔
      summary = ⟨2, m.classCount⟩ ∧ ∀ file ∈ [header, source],
        ((generate m stem directory).on before).2.read (FilePath.join directory file.name) =
          .ok file.contents.toUTF8 := by
  obtain ⟨result, after, hwrites, hends⟩ := ends_generate h directory before
  rw [hends.on_eq, ← hwrites.eq_ok_iff (files?_ne_nil h) (Model.beside_of_files? h directory)
    (nodup_places_of_files? h directory)]
  cases result with
  | error e => simp [Except.map]
  | ok _ => simp [Except.map, eq_comm]

/-- What the summary of a run counts is what the run has written. There is one order in which the
classes of a tree are gone through, children first, and each of the four recursions gives it. A
model without files leaves the tree as it was. -/
theorem generate_counts_rendered :
    (∀ t : Traversals, t.Recursive ↔ t = .rendered) ∧ (∀ c : ClassModel, c.Traversed) ∧
    ∀ (m : Model) (stem : String),
      (m.files? stem = none ∧ ∀ directory before,
        (generate m stem directory).on before = (.error .unrenderable, before)) ∨
      ∃ header source, m.files? stem = some [header, source] ∧
        m.Shows stem header source m.classCount ∧
        ∀ directory before summary,
          ((generate m stem directory).on before).1 = .ok summary ↔
            summary = ⟨2, m.classCount⟩ ∧ ∀ file ∈ [header, source],
              ((generate m stem directory).on before).2.read
                (FilePath.join directory file.name) = .ok file.contents.toUTF8 := by
  refine ⟨Traversals.recursive_iff, ClassModel.traversed, fun m stem => ?_⟩
  rcases m.files?_cases stem with ⟨header, source, hfiles⟩ | ⟨_, _, hnone⟩
  · exact .inr ⟨header, source, hfiles, Model.shows_of_files? hfiles,
      on_generate_eq_ok_iff hfiles⟩
  · refine .inl ⟨hnone, fun directory before => ?_⟩
    rw [generate, hnone]
    exact (ends_throw _ before).on_eq

/-- Generating the decoder of a trip writes two parse functions and the one for the root. -/
theorem generate_counts_rendered_trip :
    let trip := (tripDocument.typed .factory).model .factory
    ((generate trip "trip" "out").on {}).1 = .ok ⟨2, 3⟩ ∧
    ∃ header source, trip.files? "trip" = some [header, source] ∧
      trip.Shows "trip" header source 3 := by
  intro trip
  have hensure : ({} : FileTree).ensure (FilePath.around (FilePath.join "out" "trip")) =
      (.ok (), ⟨[(["out"], .directory)], []⟩) := rfl
  have hfitting : Fitting ⟨[(["out"], .directory)], []⟩ "trip" "out" trip :=
    fitting_of_write ((Decoder.files?_isSome_iff trip "trip").mpr (Schema.complete_model _))
      (List.forall_mem_cons.mpr ⟨⟨_, rfl⟩, List.forall_mem_singleton.mpr ⟨_, rfl⟩⟩)
  obtain ⟨summary, hends⟩ := ends_generate_of_fitting hensure hfitting
  have hcount : trip.classCount = 3 := rfl
  rcases generate_counts_rendered.2.2 trip "trip" with ⟨hnone, _⟩ |
    ⟨header, source, hfiles, hshows, hgenerate⟩
  · exact absurd hnone (Option.ne_none_iff_isSome.mpr hfitting.1)
  · have hsummary := ((hgenerate "out" {} summary).mp (congrArg Prod.fst hends.on_eq)).1
    rw [hcount] at hsummary hshows
    exact ⟨hsummary ▸ congrArg Prod.fst hends.on_eq, header, source, hfiles, hshows⟩

end Session

end BeanForge
