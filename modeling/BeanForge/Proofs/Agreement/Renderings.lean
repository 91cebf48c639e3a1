import BeanForge.Proofs.Agreement.Decoder
import BeanForge.Proofs.Agreement.Wrapper
import BeanForge.Proofs.Rendering
/-!
# Renderings of one document

Wrappers, decoders and value classes are rendered from separate models. They fit together because
the models of a document have classes at the same positions, and the classes at a position have
the same members but for what only one target needs.
-/
namespace BeanForge

/-- At every position at which a schema has a scope, both models have a class for it, and the
wrapper of the one fits the value class of the other. There are no further classes. -/
def Wrapper.Agrees (s : Schema) (m bean : Model) : Prop :=
  ∀ position,
    match s.rootScope.at? position with
    | none => m.root.at? position = none ∧ bean.root.at? position = none
    | some x => ∃ w ∈ m.root.postorder, ∃ b ∈ bean.root.postorder,
        m.root.at? position = some w ∧ bean.root.at? position = some b ∧
          Wrapper.Matches bean.root.moduleName x w b

/-- The decoder stands in the namespace of the value classes, and at every position at which a
schema has a scope, one of its functions fits the value class. There are no further classes. -/
def Decoder.Agrees (s : Schema) (m bean : Model) : Prop :=
  m.root.moduleName = bean.root.moduleName ∧
    ∃ fs entry, parseFunctions? m = some fs ∧ entryFunction? m = some entry ∧ ∀ position,
      match s.rootScope.at? position with
      | none => m.root.at? position = none ∧ bean.root.at? position = none
      | some x => ∃ f ∈ entry :: fs, ∃ b ∈ bean.root.postorder,
          decodeFunction? m position = some f ∧ bean.root.at? position = some b ∧
            Decoder.Matches x f b

namespace Schema

/-- The wrappers of a schema agree with its value classes. -/
theorem wrapper_agrees (s : Schema) :
    Wrapper.Agrees s (s.model .qtbean) (s.unbound.model .bean) := by
  intro position
  have hroot : s.rootScope ∈ s.scopes := List.mem_append_right _ List.mem_cons_self
  have hw := s.at?_root_model .qtbean position
  have hb := s.at?_root_unbound position
  cases hx : s.rootScope.at? position with
  | none =>
    rw [hx] at hw hb
    exact ⟨hw, hb⟩
  | some x =>
    rw [hx] at hw hb
    have hmatches := Wrapper.matches_classAt s (s.names_ne_nil (s.mem_scopes_of_at? hroot hx))
    exact ⟨_, ClassModel.mem_postorder_of_at? hw, _, ClassModel.mem_postorder_of_at? hb, hw, hb,
      hmatches⟩

/-- The decoder of a schema agrees with its value classes if every property can be decoded. -/
theorem decoder_agrees (s : Schema) (hchecked : ∀ x ∈ s.scopes, x.Checked true) :
    Decoder.Agrees s (s.model .factory) (s.unbound.model .bean) := by
  obtain ⟨hfs, hentry⟩ := (Decoder.complete_iff_functions _).mp s.complete_model
  obtain ⟨fs, hfs⟩ := Option.isSome_iff_exists.mp hfs
  obtain ⟨entry, hentry⟩ := Option.isSome_iff_exists.mp hentry
  refine ⟨rfl, fs, entry, hfs, hentry, fun position => ?_⟩
  have hroot : s.rootScope ∈ s.scopes := List.mem_append_right _ List.mem_cons_self
  have hc := s.at?_root_model .factory position
  have hb := s.at?_root_unbound position
  cases hx : s.rootScope.at? position with
  | none =>
    rw [hx] at hc hb
    exact ⟨hc, hb⟩
  | some x =>
    rw [hx] at hc hb
    have hmem := s.mem_scopes_of_at? hroot hx
    cases position with
    | nil =>
      obtain rfl : s.rootScope = x := Option.some.inj hx
      obtain ⟨body, hbody, hmade⟩ := Option.bind_eq_some_iff.mp hentry
      obtain rfl := Option.some.inj hmade
      rw [root_model] at hbody
      refine ⟨_, List.mem_cons_self, _, ClassModel.mem_postorder_of_at? hb, hentry, hb, ?_⟩
      exact Decoder.matches_classAt s (hchecked _ hmem) rfl hbody
    | cons i position =>
      have hnested := ClassModel.mem_nested_of_at? hc
      obtain ⟨f, hf, hparse⟩ := Fallible.exists_mem_of_mapM_eq_some hfs hnested
      obtain ⟨name, body, _, hbody, rfl⟩ := Decoder.parseFunction?_eq_some_iff.mp hparse
      refine ⟨_, List.mem_cons_of_mem _ hf, _, ClassModel.mem_postorder_of_at? hb, ?_, hb, ?_⟩
      · rw [Decoder.decodeFunction?, hc]
        exact hparse
      · exact Decoder.matches_classAt s (hchecked x hmem) rfl hbody

end Schema

/-- The renderings of a document that is accepted for wrappers or for a decoder agree with its
value classes, for which it is then accepted too, and the files of both are written as they agree.
-/
theorem Document.renderings_agree (d : Document) :
    (∀ s, d.check .qtbean = .ok s →
      ∃ s', d.check .bean = .ok s' ∧ Wrapper.Agrees s (s.model .qtbean) (s'.model .bean) ∧
        (s.model .qtbean).Written ∧ (s'.model .bean).Written) ∧
    (∀ s, d.check .factory = .ok s →
      ∃ s', d.check .bean = .ok s' ∧ Decoder.Agrees s (s.model .factory) (s'.model .bean) ∧
        (s.model .factory).Written ∧ (s'.model .bean).Written) := by
  constructor
  · intro s hs
    exact ⟨s.unbound, check_bean_of_check hs, s.wrapper_agrees, s.written _, s.unbound.written _⟩
  · intro s hs
    exact ⟨s.unbound, check_bean_of_check hs, s.decoder_agrees (checked_scopes hs), s.written _,
      s.unbound.written _⟩

/-- A document with a single class and a list of another one inside it. -/
def tripDocument : Document where
  name := some "Trip"
  moduleName := some "travel"
  source := some "json"
  properties := some [
    { name := some "title", typeName := some "QString", access := some "rw",
      jsonPath := some "title" },
    { name := some "route", typeName := some "class", access := some "r",
      className := some "Route", jsonPath := some "plan/route",
      properties := some [
        { name := some "stops", typeName := some "class", access := some "rw", isList := true,
          className := some "Stop", jsonPath := some "stops",
          properties := some [
            { name := some "minutes", typeName := some "int", access := some "c",
              jsonPath := some "minutes", jsonOptional := true }] }] }]

/-- The renderings of a trip agree, down to the class of its stops. -/
theorem Document.renderings_agree_trip :
    (∃ s', tripDocument.check .bean = .ok s' ∧
      Wrapper.Agrees (tripDocument.typed .qtbean) ((tripDocument.typed .qtbean).model .qtbean)
        (s'.model .bean) ∧
      ((tripDocument.typed .qtbean).model .qtbean).Written ∧ (s'.model .bean).Written) ∧
    (∃ s', tripDocument.check .bean = .ok s' ∧
      Decoder.Agrees (tripDocument.typed .factory) ((tripDocument.typed .factory).model .factory)
        (s'.model .bean) ∧
      ((tripDocument.typed .factory).model .factory).Written ∧ (s'.model .bean).Written) ∧
    ((tripDocument.typed .factory).rootScope.at? [0, 0]).map (·.names) =
      some ["Trip", "Route", "Stop"] :=
  ⟨(Document.renderings_agree tripDocument).1 _ (by rfl),
    (Document.renderings_agree tripDocument).2 _ (by rfl), by rfl⟩

end BeanForge
