import BeanForge.Proofs.Decoder.Code
import BeanForge.Proofs.Decoder.Completeness
import BeanForge.Proofs.ValueClass.Code
import BeanForge.Proofs.Wrapper.Code
import BeanForge.Rendering
/-!
# Files are code

The files of a model, for every stem and down to the last line. What is said of the functions of a
model, of their bodies or of its properties is thereby said of these files: the code is spelled out
in the three modules on the code of value classes, of wrappers and of decoders.
-/
namespace BeanForge

/-- The files of a model are the code of its value classes. -/
def ValueClass.Written (m : Model) : Prop :=
  ∀ stem, m.files? stem =
    some [.ofLines (stem ++ ".h") (headerCode m stem),
      .ofLines (stem ++ ".cpp") (sourceCode m stem)]

/-- The files of a model are the code of its wrappers. -/
def Wrapper.Written (m : Model) : Prop :=
  ∀ stem, m.files? stem =
    some [.ofLines (stem ++ "object.h") (headerCode m stem),
      .ofLines (stem ++ "object.cpp") (sourceCode m stem)]

/-- The files of a model are the code of these functions. -/
def Decoder.Written (m : Model) (functions : List DecodeFunction) (entry : DecodeFunction) : Prop :=
  ∀ stem, m.files? stem =
    some [.ofLines (stem ++ "jsonfactory.h") (headerCode m stem),
      .ofLines (stem ++ "jsonfactory.cpp") (sourceCode m functions entry stem)]

/-- The files of a model are the code of what its target makes of it. -/
def Model.Written (m : Model) : Prop :=
  match m.target with
  | .bean => ValueClass.Written m
  | .qtbean => Wrapper.Written m
  | .factory => ∃ functions entry, Decoder.parseFunctions? m = some functions ∧
      Decoder.entryFunction? m = some entry ∧ Decoder.Written m functions entry

lemma ValueClass.written {m : Model} (h : m.target = .bean) : Written m := by
  intro stem
  rw [Model.files?, h]
  exact congrArg some (files_eq_code m stem)

lemma Wrapper.written {m : Model} (h : m.target = .qtbean) : Written m := by
  intro stem
  rw [Model.files?, h]
  exact congrArg some (files_eq_code m stem)

lemma Decoder.written {m : Model} (h : m.target = .factory) {functions : List DecodeFunction}
    {entry : DecodeFunction} (hfunctions : parseFunctions? m = some functions)
    (hentry : entryFunction? m = some entry) : Written m functions entry := by
  intro stem
  rw [Model.files?, h]
  exact files?_eq_code hfunctions hentry stem

/-- All targets of a schema are rendered as code. -/
theorem Schema.written (s : Schema) (target : Target) : (s.model target).Written := by
  cases target with
  | bean => exact ValueClass.written rfl
  | qtbean => exact Wrapper.written rfl
  | factory =>
    obtain ⟨hfunctions, hentry⟩ := (Decoder.complete_iff_functions _).mp s.complete_model
    obtain ⟨functions, hfunctions⟩ := Option.isSome_iff_exists.mp hfunctions
    obtain ⟨entry, hentry⟩ := Option.isSome_iff_exists.mp hentry
    exact ⟨functions, entry, hfunctions, hentry, Decoder.written rfl hfunctions hentry⟩

end BeanForge
