import BeanForge.Proofs.Agreement.Positions
import BeanForge.Proofs.Decoder.Completeness
import BeanForge.Proofs.Files.Steps
/-!
# Models that cannot be rendered

A model need not come from a schema, and its decoder then may refer to objects that are never looked
up, or to classes that are not there. `Dangling` lists the ways in which a class can do so, by what
stands in the model alone: tables, the order of entries and entries that hide others play no part.
`files?_eq_none_iff` says that these are the only models without files.
-/
namespace BeanForge

namespace Decoder

/-- Segments that neither stand for the document nor lead to an object that a class looks up. -/
def Unreached (c : ClassModel) (segments : List String) : Prop :=
  segments ≠ ["root"] ∧ ∀ l ∈ c.plan.getD [], l.parents ++ [l.key] ≠ segments

/-- A class that refers to something that is not there. -/
inductive Dangling (root c : ClassModel) : Prop where
  /-- An object is to be looked up in one that is never reached. -/
  | step (l : Lookup) (mem : l ∈ c.plan.getD []) (unreached : Unreached c l.parents)
  /-- A value is to be read from an object that is never reached. -/
  | source (m : Member) (mem : m ∈ c.members) (j : JsonSource) (json : m.json = some j)
    (unreached : Unreached c j.parents)
  /-- A value is to be parsed by the function of a class that is not below the root. -/
  | parsed (m : Member) (mem : m ∈ c.members) (j : JsonSource) (json : m.json = some j)
    (shape : j.shape = .object ∨ j.shape = .objectArray)
    (absent : ∀ i position d, root.at? (i :: position) = some d → d.nestedName ≠ m.nestedType)

lemma unreached_iff {c : ClassModel} {segments : List String} :
    Unreached c segments ↔ ¬ Reaches c segments := by
  simp [Unreached, Reaches, steps, Lookup.segments, JsonPath.rootSegment]

lemma isParsed_iff (shape : JsonShape) :
    isParsed shape ↔ shape = .object ∨ shape = .objectArray := by
  cases shape <;> simp [isParsed]

lemma absent_iff {root : ClassModel} {type : String} :
    (∀ i position d, root.at? (i :: position) = some d → d.nestedName ≠ type) ↔
      ¬ ∃ d ∈ root.nested, d.nestedName = type := by
  simp only [ClassModel.mem_nested_iff]
  grind

/-- A class dangles if something that it refers to is missing. -/
theorem dangling_iff (root c : ClassModel) :
    Dangling root c ↔ ¬ RefersWithin root.nested c := by
  constructor
  · rintro h ⟨hsteps, hmembers⟩
    cases h with
    | step l hl hunreached => exact unreached_iff.mp hunreached (hsteps l hl)
    | source m hm j hj hunreached => exact unreached_iff.mp hunreached (hmembers m hm j hj).1
    | parsed m hm j hj hshape habsent =>
      exact absent_iff.mp habsent ((hmembers m hm j hj).2 ((isParsed_iff _).mpr hshape))
  · intro h
    by_contra hnot
    refine h ⟨fun l hl => ?_, fun m hm j hj => ⟨?_, fun hparsed => ?_⟩⟩
    · by_contra hreach
      exact hnot (.step l hl (unreached_iff.mpr hreach))
    · by_contra hreach
      exact hnot (.source m hm j hj (unreached_iff.mpr hreach))
    · by_contra hclass
      exact hnot (.parsed m hm j hj ((isParsed_iff _).mp hparsed) (absent_iff.mpr hclass))

/-- A model in which some class at some position dangles. -/
def Dangles (m : Model) : Prop :=
  ∃ position c, m.root.at? position = some c ∧ Dangling m.root c

theorem dangles_iff (m : Model) : Dangles m ↔ ¬ Complete m := by
  simp only [Dangles, Complete, dangling_iff, ClassModel.mem_postorder_iff]
  grind

end Decoder

/-- A model has two files or none. -/
lemma Model.files?_cases (m : Model) (stem : String) :
    (∃ header source, m.files? stem = some [header, source]) ∨
      m.target = .factory ∧ Decoder.files? m stem = none ∧ m.files? stem = none := by
  cases htarget : m.target with
  | bean => exact .inl ⟨_, _, by rw [files?, htarget]; rfl⟩
  | qtbean => exact .inl ⟨_, _, by rw [files?, htarget]; rfl⟩
  | factory =>
    have hfiles : m.files? stem = Decoder.files? m stem := by rw [files?, htarget]
    rw [hfiles, Decoder.files?]
    cases Decoder.source? m stem with
    | none => exact .inr ⟨rfl, rfl, rfl⟩
    | some source => exact .inl ⟨_, _, rfl⟩

/-- Value classes and wrappers can always be rendered, and a decoder exactly if no class dangles.
The result is two files or none, and without files, generating ends with the failure for this
before anything is written. -/
theorem Model.files?_eq_none_iff (m : Model) (stem : String) :
    (m.files? stem = none ↔ m.target = .factory ∧ Decoder.Dangles m) ∧
    ((∃ header source, m.files? stem = some [header, source]) ↔
      ¬ (m.target = .factory ∧ Decoder.Dangles m)) ∧
    ∀ directory t, (m.files? stem).isSome ∨
      (Session.generate m stem directory).Ends t (.error .unrenderable) t := by
  have hdangles : Decoder.Dangles m ↔ Decoder.files? m stem = none := by
    rw [Decoder.dangles_iff, ← Decoder.files?_isSome_iff m stem, Option.not_isSome_iff_eq_none]
  rcases m.files?_cases stem with ⟨header, source, hfiles⟩ | ⟨htarget, hnone, hfiles⟩
  · have hcomplete : ¬ (m.target = .factory ∧ Decoder.Dangles m) := by
      rintro ⟨htarget, hdangling⟩
      rw [files?, htarget, hdangles.mp hdangling] at hfiles
      cases hfiles
    rw [hfiles]
    exact ⟨iff_of_false nofun hcomplete, iff_of_true ⟨_, _, rfl⟩ hcomplete,
      fun _ _ => .inl rfl⟩
  · have hdangling := hdangles.mpr hnone
    rw [hfiles]
    refine ⟨iff_of_true rfl ⟨htarget, hdangling⟩, iff_of_false nofun ?_, fun directory t => .inr ?_⟩
    · exact fun hnot => hnot ⟨htarget, hdangling⟩
    · rw [Session.generate, hfiles]
      exact Session.ends_throw _ t

end BeanForge
