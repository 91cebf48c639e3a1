import BeanForge.Proofs.Agreement.Wrapper
import BeanForge.Proofs.Declarations
import Mathlib.Data.List.Sort
/-!
# Headers

The headers of a model depend on which types are declared at any depth and on whether there is a
list: first comes that of lists, then those of the Qt types, each once and in order. So they stay
the same when declarations change their places, in a class or from one class to another.
-/
namespace BeanForge

namespace Schema

lemma mem_insertSorted_iff {a text : String} {texts : List String} :
    a ∈ insertSorted text texts ↔ a = text ∨ a ∈ texts := by
  induction texts with
  | nil => simp [insertSorted]
  | cons t ts ih =>
    rw [insertSorted]
    split_ifs with hlt heq
    · exact List.mem_cons
    · subst heq
      simp
    · rw [List.mem_cons, ih, List.mem_cons, or_left_comm]

lemma mem_sortDistinct_iff {a : String} {texts : List String} :
    a ∈ sortDistinct texts ↔ a ∈ texts := by
  induction texts with
  | nil => rfl
  | cons t ts ih =>
    rw [sortDistinct, List.foldr_cons, mem_insertSorted_iff, List.mem_cons, ← ih]
    rfl

/-- A text is put in front of the first one that is greater. -/
lemma pairwise_insertSorted (text : String) {texts : List String}
    (h : texts.Pairwise (· < ·)) : (insertSorted text texts).Pairwise (· < ·) := by
  induction texts with
  | nil => exact List.pairwise_singleton _ _
  | cons t ts ih =>
    obtain ⟨hfirst, hrest⟩ := List.pairwise_cons.mp h
    rw [insertSorted]
    split_ifs with hlt heq
    · refine List.pairwise_cons.mpr ⟨?_, h⟩
      intro a ha
      rcases List.mem_cons.mp ha with rfl | ha
      · exact hlt
      · exact String.lt_trans hlt (hfirst a ha)
    · exact h
    · refine List.pairwise_cons.mpr ⟨?_, ih hrest⟩
      intro a ha
      rcases mem_insertSorted_iff.mp ha with rfl | ha
      · exact ((Std.lt_trichotomy a t).resolve_left hlt).resolve_left heq
      · exact hfirst a ha

lemma pairwise_sortDistinct (texts : List String) :
    (sortDistinct texts).Pairwise (· < ·) := by
  induction texts with
  | nil => exact List.Pairwise.nil
  | cons t ts ih => exact pairwise_insertSorted t ih

/-- There is one strictly increasing list of the same texts. -/
lemma sortDistinct_congr {texts texts' : List String} (h : ∀ a, a ∈ texts ↔ a ∈ texts') :
    sortDistinct texts = sortDistinct texts' := by
  refine (pairwise_sortDistinct texts).eq_of_mem_iff (pairwise_sortDistinct texts') ?_
  intro a
  rw [mem_sortDistinct_iff, mem_sortDistinct_iff, h]

end Schema

namespace Property

/-- A declaration without its class. -/
def bare (p : Property) : Property :=
  { p with nested := none }

end Property

/-- Declarations that change their places: in a class, or from one to the class around it or back.
Several such changes bring a declaration to any place of a schema that is not inside of it. -/
inductive Rearranged : List Property → List Property → Prop
  | permuted {ps qs : List Property} (h : ps.Perm qs) : Rearranged ps qs
  | inside {ps qs : List Property} (p : Property) (name : String) (rest : List Property)
      (h : Rearranged ps qs) :
      Rearranged ({ p with nested := some ⟨name, ps⟩ } :: rest)
        ({ p with nested := some ⟨name, qs⟩ } :: rest)
  | moved (p q : Property) (name : String) (ps rest : List Property) :
      Rearranged (q :: { p with nested := some ⟨name, ps⟩ } :: rest)
        ({ p with nested := some ⟨name, q :: ps⟩ } :: rest)
  | symm {ps qs : List Property} (h : Rearranged ps qs) : Rearranged qs ps
  | trans {ps qs rs : List Property} (h : Rearranged ps qs) (h' : Rearranged qs rs) :
      Rearranged ps rs

/-- Without their classes, declarations in other places are the same ones in another order. -/
lemma Rearranged.perm {ps qs : List Property} (h : Rearranged ps qs) :
    ((Property.declarations ps).map Property.bare).Perm
      ((Property.declarations qs).map Property.bare) := by
  induction h with
  | permuted h =>
    rw [Property.declarations_eq_flatMap, Property.declarations_eq_flatMap]
    exact (h.flatMap_right _).map _
  | inside p name rest _ ih =>
    simp only [Property.declarations, Property.declarationsIn, List.map_append, List.map_cons]
    exact (ih.append_right _).cons _
  | moved p q name ps rest =>
    simp only [Property.declarations, Property.declarationsIn, List.map_append, List.map_cons,
      List.cons_append, List.append_assoc]
    -- The declaration that moves, with all below it, passes the one whose class it goes into.
    exact List.perm_middle
  | symm _ ih => exact ih.symm
  | trans _ _ ih ih' => exact ih.trans ih'

namespace Schema

lemma hasList_congr {ps qs : List Property} (h : Rearranged ps qs) : hasList ps = hasList qs := by
  have hbare : ∀ us, hasList us = ((Property.declarations us).map Property.bare).any (·.isList) := by
    intro us
    rw [hasList_eq_any, List.any_map]
    rfl
  rw [hbare, hbare, h.perm.any_eq]

lemma mem_typeNames_congr {ps qs : List Property} (h : Rearranged ps qs) (t : String) :
    t ∈ typeNames ps ↔ t ∈ typeNames qs := by
  have hbare : ∀ us,
      typeNames us = ((Property.declarations us).map Property.bare).map (·.typeName) := by
    intro us
    rw [typeNames_eq_map, List.map_map]
    rfl
  rw [hbare, hbare, (h.perm.map _).mem_iff]

/-- Headers do not depend on the places of declarations. -/
lemma includes_congr (profile : Profile) {ps qs : List Property} (h : Rearranged ps qs) :
    includes profile ps = includes profile qs := by
  have htypes : sortDistinct ((typeNames ps).filter TypeName.isQt) =
      sortDistinct ((typeNames qs).filter TypeName.isQt) :=
    sortDistinct_congr fun t => by
      rw [List.mem_filter, List.mem_filter, mem_typeNames_congr h]
  rw [includes, includes, hasList_congr h, htypes]

lemma isQt_iff {t : String} : TypeName.isQt t = true ↔ ∃ rest, t = "Q" ++ rest := by
  rw [TypeName.isQt, beq_iff_eq]
  constructor
  · intro h
    obtain ⟨cs, hcs⟩ := List.head?_eq_some_iff.mp h
    exact ⟨String.ofList cs, String.toList_inj.mp (by simp [hcs])⟩
  · rintro ⟨rest, rfl⟩
    rw [String.toList_append]
    rfl

/-- The headers of a model after that of lists. -/
def typeHeaders (s : Schema) (target : Target) : List String :=
  if target.profile.typeHeaders then
    sortDistinct ((typeNames s.properties).filter TypeName.isQt)
  else []

variable (s : Schema) (target : Target)

lemma includes_model_eq : (s.model target).includes =
    (if s.declarations.any (·.isList) then [target.profile.listHeader] else []) ++
      s.typeHeaders target := by
  rw [declarations, ← hasList_eq_any]
  rfl

lemma mem_typeHeaders_iff {t : String} : t ∈ s.typeHeaders target ↔
    target ≠ .factory ∧ (∃ rest, t = "Q" ++ rest) ∧ ∃ p ∈ s.declarations, p.typeName = t := by
  have htarget : target.profile.typeHeaders = true ↔ target ≠ .factory := by
    cases target <;> decide
  rw [typeHeaders]
  split_ifs with h
  · rw [mem_sortDistinct_iff, List.mem_filter, isQt_iff, typeNames_eq_map, List.mem_map, and_comm]
    exact (and_iff_right (htarget.mp h)).symm
  · simp [← htarget, h]

lemma pairwise_typeHeaders : (s.typeHeaders target).Pairwise (· < ·) := by
  rw [typeHeaders]
  split_ifs
  · exact pairwise_sortDistinct _
  · exact List.Pairwise.nil

/-- The header of lists is none of those of Qt types, where these are included. -/
lemma listHeader_not_mem_typeHeaders : target.profile.listHeader ∉ s.typeHeaders target := by
  intro h
  obtain ⟨htarget, ⟨rest, hrest⟩, _⟩ := (s.mem_typeHeaders_iff target).mp h
  have hheader : target.profile.listHeader = "vector" := by
    cases target
    · rfl
    · rfl
    · exact absurd rfl htarget
  have hfirst := congrArg String.toList (hheader.symm.trans hrest)
  rw [String.toList_append] at hfirst
  exact absurd (List.cons.inj hfirst).1 (by decide)

lemma nodup_includes_model : (s.model target).includes.Nodup := by
  have htypes := (s.pairwise_typeHeaders target).nodup
  rw [includes_model_eq]
  split_ifs
  · exact List.nodup_cons.mpr ⟨s.listHeader_not_mem_typeHeaders target, htypes⟩
  · exact htypes

lemma hasList_model_iff :
    (s.model target).hasList = true ↔ ∃ p ∈ s.declarations, p.isList = true := by
  rw [declarations, ← List.any_eq_true, ← hasList_eq_any]
  rfl

/-- A model has a list exactly if one of its members is one. -/
lemma exists_list_member_iff :
    (∃ c ∈ (s.model target).root.postorder, ∃ m ∈ c.members, m.kind = .list) ↔
      ∃ p ∈ s.declarations, p.isList = true := by
  rw [postorder_model]
  constructor
  · rintro ⟨c, hc, m, hm, hkind⟩
    obtain ⟨x, hx, rfl⟩ := List.mem_map.mp hc
    obtain ⟨p, hp, rfl⟩ := List.mem_map.mp hm
    exact ⟨p, mem_declarations_iff.mpr ⟨x, hx, hp⟩,
      (Wrapper.kind_member_eq_list_iff _ _ p).mp hkind⟩
  · rintro ⟨p, hp, hlist⟩
    obtain ⟨x, hx, hp⟩ := mem_declarations_iff.mp hp
    exact ⟨_, List.mem_map_of_mem hx, _, List.mem_map_of_mem hp,
      (Wrapper.kind_member_eq_list_iff _ _ p).mpr hlist⟩

/-- The headers of a model: that of lists if some declaration is a list, then those of the Qt types
that are declared, in the order of their code points. None stands twice, and the places of the
declarations do not matter. -/
theorem headers_model :
    (∃ types, (s.model target).includes =
        (if s.declarations.any (·.isList) then [target.profile.listHeader] else []) ++ types ∧
      types.Pairwise (· < ·) ∧
      ∀ t, t ∈ types ↔ target ≠ .factory ∧ (∃ rest, t = "Q" ++ rest) ∧
        ∃ p ∈ s.declarations, p.typeName = t) ∧
    ((s.model target).hasList = true ↔ ∃ p ∈ s.declarations, p.isList = true) ∧
    ((s.model target).hasList = true ↔
      ∃ c ∈ (s.model target).root.postorder, ∃ m ∈ c.members, m.kind = .list) ∧
    (s.model target).includes.Nodup ∧
    ∀ t : Schema, Rearranged s.properties t.properties →
      (t.model target).includes = (s.model target).includes := by
  refine ⟨⟨s.typeHeaders target, s.includes_model_eq target, s.pairwise_typeHeaders target,
    fun _ => s.mem_typeHeaders_iff target⟩, s.hasList_model_iff target, ?_,
    s.nodup_includes_model target, ?_⟩
  · rw [hasList_model_iff, exists_list_member_iff]
  · intro t h
    exact (includes_congr target.profile h).symm

/-- A list and a Qt type are found at any depth, also after they have moved. -/
theorem headers_model_moved :
    let day : Property := ⟨"day", "QDate", .const, true, none, none⟩
    let title : Property := ⟨"title", "QString", .const, false, none, none⟩
    let plan : List Property → Property := fun ps => ⟨"plan", classType, .const, false,
      some ⟨"Plan", ps⟩, none⟩
    let s : Schema := ⟨"Trip", "transit", [day, plan [title]]⟩
    let t : Schema := ⟨"Trip", "transit", [plan [day, title]]⟩
    Rearranged s.properties t.properties ∧
      (t.model .bean).includes = (s.model .bean).includes ∧
      (s.model .bean).includes = ["vector", "QDate", "QString"] := by
  intro day title plan s t
  have hmoved : Rearranged s.properties t.properties :=
    .moved ⟨"plan", classType, .const, false, none, none⟩ day "Plan" [title] []
  obtain ⟨_, _, _, _, hplaces⟩ := headers_model s .bean
  exact ⟨hmoved, hplaces t hmoved, by decide⟩

end Schema

end BeanForge
