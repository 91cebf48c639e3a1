import BeanForge.Decoder.Key
import BeanForge.Proofs.Agreement.Renderings
import BeanForge.Proofs.Text.Latin1
/-!
# Keys of decoding functions

Which keys a decoder looks up, and what its expressions for them denote. The functions of a decoder
look up the segments of the declared paths and nothing else. A key stands in the source as a literal
in UTF-8 whose bytes are taken as Latin-1: `keys_denoted` says that this is the declared key exactly
if all its characters are narrow.
-/
namespace BeanForge

namespace Decoder

open Text

lemma denotedKey?_keyText (key : String) :
    denotedKey? (keyText key) =
      some (String.ofList (latin1Text (bytesOf (key.toList.map unitOf)))) := by
  have hparts : (keyText key).toList =
      "QLatin1String(".toList ++ ((literal key).toList ++ [')']) :=
    calc (keyText key).toList = ("QLatin1String(" ++ literal key).toList ++ [')'] :=
          String.toList_append ..
      _ = "QLatin1String(".toList ++ (literal key).toList ++ [')'] :=
          congrArg (· ++ [')']) (String.toList_append ..)
      _ = _ := List.append_assoc ..
  have hopening : (keyText key).toList.dropPrefix? "QLatin1String(".toList =
      some ((literal key).toList ++ [')']) :=
    List.dropPrefix?_eq_some_iff.mpr ⟨_, hparts, BEq.rfl⟩
  rw [denotedKey?, hopening]
  simp only [Option.bind_eq_bind, Option.bind_some, readLiteral_literal, if_true]

/-- The expression for a key always denotes some text, and it is the key exactly if all characters
of the key are narrow. -/
theorem exists_denotedKey? (key : String) :
    ∃ found, denotedKey? (keyText key) = some found ∧
      (found = key ↔ ∀ c ∈ key.toList, isNarrow c) := by
  refine ⟨_, denotedKey?_keyText key, ?_⟩
  rw [← latin1Text_bytesOf_eq_iff, ← String.toList_inj, String.toList_ofList]

lemma denotedKey?_eq_some_denoted (key : String) :
    denotedKey? (keyText key) = some (denoted key) := by
  rw [denoted, denotedKey?_keyText, Option.getD_some]

lemma denoted_eq_iff (key : String) : denoted key = key ↔ ∀ c ∈ key.toList, isNarrow c := by
  obtain ⟨found, hfound, hiff⟩ := exists_denotedKey? key
  rwa [denoted, hfound, Option.getD_some]

/-- A text that stands somewhere in another one. -/
def Within (part text : String) : Prop :=
  part.toList <:+: text.toList

section

variable {part text : String}

lemma Within.append_left (h : Within part text) (before : String) : Within part (before ++ text) := by
  rw [Within, String.toList_append]
  exact h.trans (List.suffix_append _ _).isInfix

lemma Within.append_right (h : Within part text) (after : String) : Within part (text ++ after) := by
  rw [Within, String.toList_append]
  exact h.trans (List.prefix_append _ _).isInfix

lemma Within.braced (h : Within part text) : Within part (SourceText.braced text) :=
  (h.append_left _).append_right _

lemma Within.line (h : Within part text) : Within part (Text.line text) :=
  h.append_right _

lemma Within.lines {texts : List String} (h : ∃ text ∈ texts, Within part text) :
    Within part (Text.lines texts) := by
  obtain ⟨text, hmem, htext⟩ := h
  obtain ⟨before, after, rfl⟩ := List.append_of_mem hmem
  rw [Text.lines, List.map_append, List.map_cons, String.join_append, String.join_cons]
  exact (htext.line.append_right _).append_left _

end

lemma within_keyText (before key after : String) :
    Within (keyText key) (before ++ keyText key ++ after) :=
  Within.append_right (Within.append_left List.infix_rfl before) after

lemma within_valueText (object key : String) : Within (keyText key) (valueText object key) :=
  within_keyText _ _ _

lemma within_loopStart (object key : String) : Within (keyText key) (loopStart object key) :=
  (((within_valueText object key).append_left _).append_right _).append_right _

/-- A statement that looks up a key contains the expression for it. -/
lemma keyText_within_text {s : Statement} {key : String} (h : s.key? = some key) :
    Within (keyText key) s.text := by
  cases s <;> cases h
  case bind object parent =>
    exact ((((within_valueText parent key).append_right _).braced.append_left _).append_right _).line
  case require object =>
    exact .lines ⟨_, List.mem_cons_self, (within_keyText _ _ _).append_right _⟩
  case scalar type field object conversion =>
    have hvalue := (within_valueText object key).append_right ("." ++ conversion ++ "()")
    rw [← String.append_assoc, ← String.append_assoc] at hvalue
    exact ((hvalue.braced.append_left _).append_right _).line
  case appendScalars field object conversion =>
    exact .lines ⟨_, List.mem_cons_self, within_loopStart object key⟩
  case parse field object function =>
    exact .lines ⟨_, List.mem_cons_self, (within_keyText _ _ _).append_right _⟩
  case appendParsed field object function =>
    exact .lines ⟨_, List.mem_cons_self, within_loopStart object key⟩

/-- The statements that read a property look up its key and no other. -/
lemma mem_keys_readStatements {table : List (String × String)} {m : Member} {j : JsonSource}
    {object : String} {reads : List Statement}
    (hreads : readStatements table m j object = some reads) (key : String) :
    key ∈ keys reads ↔ key = j.key := by
  unfold readStatements at hreads
  cases hshape : j.shape <;> rw [hshape] at hreads
  case simple | array =>
    obtain rfl := Option.some.inj hreads
    cases j.optional <;> simp [keys, Statement.key?, eq_comm]
  case object | objectArray =>
    obtain ⟨f, _, hmade⟩ := Option.bind_eq_some_iff.mp hreads
    obtain rfl := Option.some.inj hmade
    cases j.optional <;> simp [keys, Statement.key?, eq_comm]

lemma mem_keys_reads {table : List (String × String)} {objects : List (List String × String)}
    {members : List Member} {reads : List (List Statement)}
    (hreads : members.mapM (memberStatements table objects) = some reads) (key : String) :
    key ∈ keys reads.flatten ↔ ∃ m ∈ members, ∃ j, m.json = some j ∧ key = j.key := by
  induction members generalizing reads with
  | nil =>
    obtain rfl : reads = [] := by simpa [eq_comm] using hreads
    simp [keys]
  | cons m members ih =>
    obtain ⟨read, rest, hread, hrest, rfl⟩ := Fallible.mapM_cons_eq_some_iff.mp hreads
    have happend : keys (read ++ rest.flatten) = keys read ++ keys rest.flatten :=
      List.filterMap_append ..
    rw [List.flatten_cons, happend, List.mem_append, ih hrest, List.exists_mem_cons_iff]
    refine or_congr_left ?_
    cases hj : m.json with
    | none =>
      rw [memberStatements, hj] at hread
      obtain rfl := Option.some.inj hread
      simp [keys]
    | some j =>
      rw [memberStatements, hj] at hread
      obtain ⟨object, _, hread⟩ := Option.bind_eq_some_iff.mp hread
      simp [mem_keys_readStatements hread]

lemma keys_binds {objects : List (List String × String)} {plan : List Lookup}
    {binds : List Statement} (hbinds : plan.mapM (bindStatement objects) = some binds) :
    keys binds = plan.map (·.key) := by
  induction plan generalizing binds with
  | nil =>
    obtain rfl : binds = [] := by simpa [eq_comm] using hbinds
    rfl
  | cons l plan ih =>
    obtain ⟨s, rest, hs, hrest, rfl⟩ := Fallible.mapM_cons_eq_some_iff.mp hbinds
    obtain ⟨own, parent, _, _, rfl⟩ := bindStatement_eq_some_iff.mp hs
    rw [List.map_cons, ← ih hrest]
    rfl

/-- A body looks up the keys of its plan and those of its properties. -/
theorem mem_keys_body {table : List (String × String)} {c : ClassModel} {body : List Statement}
    (hbody : body? table c = some body) (key : String) :
    key ∈ keys body ↔
      (∃ l ∈ steps c, l.key = key) ∨ ∃ m ∈ c.members, ∃ j, m.json = some j ∧ key = j.key := by
  obtain ⟨binds, hbinds, hbody⟩ := Option.bind_eq_some_iff.mp hbody
  obtain ⟨reads, hreads, hbody⟩ := Option.bind_eq_some_iff.mp hbody
  obtain rfl := Option.some.inj hbody
  have happend : keys (binds ++ reads.flatten ++
      [.construct c.nestedName (c.members.map argument)]) = keys binds ++ keys reads.flatten := by
    simp [keys, Statement.key?]
  rw [happend, List.mem_append, keys_binds hbinds, mem_keys_reads hreads, List.mem_map]

end Decoder

/-- The keys that a plan looks up are the segments in front of the last one of each path. -/
lemma exists_step_iff (jsonPaths : List String) (key : String) :
    (∃ l ∈ decodePlan jsonPaths, l.key = key) ↔
      ∃ path ∈ jsonPaths, key ∈ (JsonPath.segments path).dropLast := by
  have hmem := mem_segments_decodePlan jsonPaths
  simp only [JsonPath.rooted_eq, JsonPath.parts] at hmem
  constructor
  · rintro ⟨l, hl, rfl⟩
    obtain ⟨hlength, path, hpath, hpre⟩ := (hmem l.segments).mp (List.mem_map_of_mem hl)
    refine ⟨path, hpath, ?_⟩
    rw [Lookup.segments] at hlength hpre
    cases hparents : l.parents with
    | nil => simp [hparents] at hlength
    | cons s parents =>
      rw [hparents, List.cons_append] at hpre
      exact (List.cons_prefix_cons.mp hpre).2.subset (by simp)
  · rintro ⟨path, hpath, hkey⟩
    obtain ⟨before, after, hsplit⟩ := List.append_of_mem hkey
    have hpre : JsonPath.rootSegment :: before ++ [key] <+:
        JsonPath.rootSegment :: (JsonPath.segments path).dropLast := by
      rw [hsplit]
      exact ⟨after, by simp⟩
    obtain ⟨l, hl, hsegments⟩ :=
      List.mem_map.mp ((hmem _).mpr ⟨by simp, path, hpath, hpre⟩)
    exact ⟨l, hl, List.singleton_inj.mp (List.append_inj' hsegments rfl).2⟩

lemma JsonPath.mem_segments_iff (path key : String) :
    key ∈ segments path ↔ key ∈ (segments path).dropLast ∨ key = (rooted path).2 := by
  have hlast : (rooted path).2 = (segments path).getLast (segments_ne_nil path) := by
    rw [rooted_eq, parts, List.getLastD_eq_getLast?, List.getLast?_eq_some_getLast, Option.getD_some]
  rw [hlast]
  conv_lhs => rw [← List.dropLast_concat_getLast (segments_ne_nil path)]
  rw [List.mem_append, List.mem_singleton]

namespace Decoder

open Text

/-- A body that looks up the segments of the paths declared in a scope. What its expression for a
key denotes is the key itself exactly if the key is made of narrow characters. -/
structure LooksUpDeclared (x : Scope) (body : List Statement) : Prop where
  declared : ∀ p ∈ x.properties, ∃ b, p.binding = some b ∧
    ∀ segment ∈ JsonPath.segments b.path, segment ∈ keys body
  only : ∀ key ∈ keys body, ∃ p ∈ x.properties, ∃ b, p.binding = some b ∧
    key ∈ JsonPath.segments b.path
  written : ∀ s ∈ body, ∀ key, s.key? = some key → Within (keyText key) s.text
  denoted : ∀ key ∈ keys body, ∃ found, denotedKey? (keyText key) = some found ∧
    (found = key ↔ ∀ c ∈ key.toList, isNarrow c)

end Decoder

namespace Schema

open Decoder

/-- The class at every position has a function, whose body is that of the class. -/
lemma exists_decodeFunction? (s : Schema) {position : List ℕ} {x : Scope}
    (hx : s.rootScope.at? position = some x) :
    ∃ f, decodeFunction? (s.model .factory) position = some f ∧
      body? (functionTable (s.model .factory).root.nested)
        (s.classAt Target.factory.profile x) = some f.body := by
  have hclass : (s.model .factory).root.at? position =
      some (s.classAt Target.factory.profile x) := by
    rw [s.at?_root_model, hx, Option.map_some]
  cases position with
  | nil =>
    have hentry := ((complete_iff_functions _).mp s.complete_model).2
    obtain ⟨f, hf⟩ := Option.isSome_iff_exists.mp hentry
    obtain ⟨body, hbody, hmade⟩ := Option.bind_eq_some_iff.mp hf
    obtain rfl := Option.some.inj hmade
    rw [← Option.some.inj hclass]
    exact ⟨_, hf, hbody⟩
  | cons i position =>
    have hnested := ClassModel.mem_nested_of_at? hclass
    have hrefers := s.complete_model _ (ClassModel.mem_postorder_of_at? hclass)
    have hparse := (isSome_parseFunction?_iff _ hnested).mpr hrefers
    obtain ⟨f, hf⟩ := Option.isSome_iff_exists.mp hparse
    have hdecode : decodeFunction? (s.model .factory) (i :: position) = some f := by
      rw [decodeFunction?, hclass]
      exact hf
    obtain ⟨_, _, _, hbody, rfl⟩ := parseFunction?_eq_some_iff.mp hf
    exact ⟨_, hdecode, hbody⟩

lemma mem_keys_classAt (s : Schema) {x : Scope} {table : List (String × String)}
    {body : List Statement} (hbody : body? table (s.classAt Target.factory.profile x) = some body)
    (key : String) :
    key ∈ keys body ↔ ∃ p ∈ x.properties, ∃ b, p.binding = some b ∧
      key ∈ JsonPath.segments b.path := by
  have hmembers : (∃ m ∈ (s.classAt Target.factory.profile x).members, ∃ j, m.json = some j ∧
      key = j.key) ↔ ∃ p ∈ x.properties, ∃ b, p.binding = some b ∧
        key = (JsonPath.rooted b.path).2 := by
    simp [classAt, classModel, Property.member, Target.profile, Property.jsonSource]
  rw [mem_keys_body hbody, steps_classAt, exists_step_iff, hmembers]
  simp only [Property.boundPaths, List.mem_filterMap, Option.map_eq_some_iff,
    JsonPath.mem_segments_iff]
  grind

end Schema

/-- The function for each class of an accepted document looks up the declared keys, as far as they
are made of narrow characters. -/
theorem Document.keys_denoted {d : Document} {s : Schema} (h : d.check .factory = .ok s) :
    ∀ position x, s.rootScope.at? position = some x →
      ∃ f, Decoder.decodeFunction? (s.model .factory) position = some f ∧
        Decoder.LooksUpDeclared x f.body := by
  intro position x hx
  obtain ⟨f, hf, hbody⟩ := s.exists_decodeFunction? hx
  have hkeys := s.mem_keys_classAt hbody
  have hroot : s.rootScope ∈ s.scopes := List.mem_append_right _ List.mem_cons_self
  have hchecked := checked_scopes h x (s.mem_scopes_of_at? hroot hx)
  refine ⟨f, hf, ?_, fun key => (hkeys key).mp, fun st _ key => Decoder.keyText_within_text,
    fun key _ => Decoder.exists_denotedKey? key⟩
  intro p hp
  obtain ⟨b, hb⟩ := hchecked.bound rfl p hp
  exact ⟨b, hb, fun segment hsegment => (hkeys segment).mpr ⟨p, hp, b, hb, hsegment⟩⟩

/-- The function for the route of a trip looks up the key of its stops, which is written in ASCII. -/
theorem Document.keys_denoted_trip :
    ∃ f, Decoder.decodeFunction? ((tripDocument.typed .factory).model .factory) [0] = some f ∧
      "stops" ∈ Decoder.keys f.body ∧
      Decoder.denotedKey? (Decoder.keyText "stops") = some "stops" := by
  have hcheck : tripDocument.check .factory = .ok (tripDocument.typed .factory) := rfl
  obtain ⟨f, hf, hkeys⟩ := Document.keys_denoted hcheck [0] _ rfl
  obtain ⟨b, hb, hsegments⟩ := hkeys.declared _ List.mem_cons_self
  obtain rfl := Option.some.inj hb
  have hmem : "stops" ∈ Decoder.keys f.body := hsegments "stops" (by decide)
  obtain ⟨found, hfound, hiff⟩ := hkeys.denoted "stops" hmem
  have hnarrow : "stops".toList.all Text.isNarrow = true := by decide
  rw [hiff.mpr (List.all_eq_true.mp hnarrow)] at hfound
  exact ⟨f, hf, hmem, hfound⟩

/-- A document with a key that is not written in ASCII. -/
def accentDocument : Document where
  name := some "D"
  moduleName := some "m"
  source := some "json"
  properties := some [
    { name := some "a", typeName := some "int", access := some "r", jsonPath := some "é" }]

/-- The decoder of this document looks up another key than the declared one, whose second byte is
taken for a character. -/
theorem Document.keys_accentDocument :
    ∃ s f, accentDocument.check .factory = .ok s ∧
      Decoder.decodeFunction? (s.model .factory) [] = some f ∧ Decoder.keys f.body = ["é", "é"] ∧
      Decoder.denotedKey? (Decoder.keyText "é") = some "Ã©" := by
  refine ⟨_, _, rfl, rfl, rfl, ?_⟩
  decide

end BeanForge
