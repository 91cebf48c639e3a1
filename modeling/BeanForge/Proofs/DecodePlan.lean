import BeanForge.PathTree
import Mathlib.Data.List.Infix
import Mathlib.Data.List.Nodup
/-!
# What a decode plan looks up

The segment lists that lead to the branches of a path tree are the non-empty prefixes of what was
inserted, each once, and each after the list one segment shorter. A decode plan therefore looks
up the objects on the way to all values, no object twice, and each in an object that is there
already: the document or the result of an earlier step.
-/
namespace BeanForge

namespace JsonPath

lemma segments_ne_nil (path : String) : segments path ≠ [] :=
  Text.split_ne_nil '/' path

lemma segments_rooted (path : String) :
    segments (rootSegment ++ "/" ++ path) = rootSegment :: segments path := by
  have hroot : (rootSegment ++ "/" ++ path).toList =
      rootSegment.toList ++ '/' :: path.toList := by
    simp
  rw [segments, Text.split, hroot, Text.splitChars_append_cons (by decide), List.map_cons,
    String.ofList_toList]
  rfl

/-- Rooting a path puts the document in front of the objects to walk through. -/
theorem rooted_eq (path : String) :
    rooted path = (rootSegment :: (parts path).1, (parts path).2) := by
  rw [rooted, parts, segments_rooted]
  obtain ⟨s, ss, hs⟩ := List.exists_cons_of_ne_nil (segments_ne_nil path)
  simp [parts, hs]

end JsonPath

namespace PathTree

lemma nil_not_mem_paths (tree : PathTree) : [] ∉ tree.paths := by
  induction tree with
  | empty => simp
  | branch key below rest _ ihrest => simp [ihrest]

lemma mem_paths_branch_iff (key : String) (below rest : PathTree) (path : List String) :
    path ∈ (branch key below rest).paths ↔
      (path = [key] ∨ ∃ tail ∈ below.paths, key :: tail = path) ∨ path ∈ rest.paths := by
  simp [or_assoc]

lemma prefix_cons_iff_of_ne_nil (key : String) (keys path : List String) :
    path ≠ [] ∧ path <+: key :: keys ↔
      path = [key] ∨ ∃ tail, (tail ≠ [] ∧ tail <+: keys) ∧ key :: tail = path := by
  constructor
  · rintro ⟨hne, hpre⟩
    obtain ⟨k, tail, rfl⟩ := List.exists_cons_of_ne_nil hne
    obtain ⟨rfl, htail⟩ := List.cons_prefix_cons.mp hpre
    by_cases h : tail = []
    · exact .inl (by rw [h])
    · exact .inr ⟨tail, ⟨h, htail⟩, rfl⟩
  · rintro (rfl | ⟨tail, ⟨_, htail⟩, rfl⟩)
    · exact ⟨by simp, by simp [List.cons_prefix_cons]⟩
    · exact ⟨by simp, List.cons_prefix_cons.mpr ⟨rfl, htail⟩⟩

lemma mem_paths_chain (keys path : List String) :
    path ∈ (chain keys).paths ↔ path ≠ [] ∧ path <+: keys := by
  induction keys generalizing path with
  | nil => simp [chain]
  | cons key keys ih =>
    rw [prefix_cons_iff_of_ne_nil, chain, mem_paths_branch_iff]
    simp only [ih, paths_empty, List.not_mem_nil, or_false]

/-- Inserting a path adds its prefixes and nothing else. -/
theorem mem_paths_insert (tree : PathTree) (keys path : List String) :
    path ∈ (tree.insert keys).paths ↔ path ∈ tree.paths ∨ (path ≠ [] ∧ path <+: keys) := by
  induction tree, keys using insert.induct generalizing path with
  | case1 tree => simp
  | case2 key keys => simp [insert, mem_paths_chain]
  | case3 below rest key keys ih =>
    rw [insert, if_pos rfl, prefix_cons_iff_of_ne_nil]
    simp only [mem_paths_branch_iff, ih]
    grind
  | case4 k below rest key keys h ih =>
    rw [insert, if_neg h]
    simp only [mem_paths_branch_iff, ih]
    grind

/-- The tree of some paths grows with each further path. -/
lemma ofPaths_concat (keyLists : List (List String)) (keys : List String) :
    ofPaths (keyLists ++ [keys]) = (ofPaths keyLists).insert keys := by
  simp [ofPaths]

theorem mem_paths_ofPaths (keyLists : List (List String)) (path : List String) :
    path ∈ (ofPaths keyLists).paths ↔ path ≠ [] ∧ ∃ keys ∈ keyLists, path <+: keys := by
  induction keyLists using List.reverseRecOn with
  | nil => simp [ofPaths]
  | append_singleton keyLists keys ih =>
    rw [ofPaths_concat, mem_paths_insert, ih]
    simp only [List.mem_append, List.mem_singleton]
    grind

/-- The way to a branch is lined with branches. -/
lemma mem_paths_of_prefix_of_mem (tree : PathTree) {path before : List String}
    (hmem : path ∈ tree.paths) (hne : before ≠ []) (hpre : before <+: path) : before ∈ tree.paths := by
  induction tree generalizing path before with
  | empty => simp at hmem
  | branch key below rest ihbelow ihrest =>
    rw [mem_paths_branch_iff] at hmem ⊢
    rcases hmem with (rfl | ⟨tail, htail, rfl⟩) | hrest
    · exact .inl (.inl (by simpa [hne] using List.prefix_cons_iff.mp hpre))
    · rcases (prefix_cons_iff_of_ne_nil key tail before).mp ⟨hne, hpre⟩ with
        rfl | ⟨tail', ⟨hne', hpre'⟩, rfl⟩
      · exact .inl (.inl rfl)
      · exact .inl (.inr ⟨tail', ihbelow htail hne' hpre', rfl⟩)
    · exact .inr (ihrest hrest hne hpre)

/-- No branch comes before one on the way to it. As a branch is on the way to itself, none is
listed twice either: siblings have different keys. -/
def Ordered (tree : PathTree) : Prop :=
  tree.paths.Pairwise fun earlier later => ¬ later <+: earlier

lemma ordered_branch_iff (key : String) (below rest : PathTree) :
    (branch key below rest).Ordered ↔
      below.Ordered ∧ rest.Ordered ∧ [key] ∉ rest.paths := by
  have hhead : ∀ tail ∈ below.paths, ¬ key :: tail <+: [key] := by
    intro tail htail hpre
    have : tail = [] := by simpa [List.cons_prefix_cons] using hpre
    exact nil_not_mem_paths below (this ▸ htail)
  have hrest : (∀ path ∈ rest.paths, ¬ path <+: [key]) ↔ [key] ∉ rest.paths := by
    constructor
    · exact fun h hmem => h _ hmem List.prefix_rfl
    · intro h path hmem hpre
      have hne : path ≠ [] := fun heq => nil_not_mem_paths rest (heq ▸ hmem)
      have : path = [key] := by simpa [hne] using List.prefix_cons_iff.mp hpre
      exact h (this ▸ hmem)
  have hacross : [key] ∉ rest.paths →
      ∀ tail ∈ below.paths, ∀ path ∈ rest.paths, ¬ path <+: key :: tail := by
    intro h tail _ path hmem hpre
    have hne : path ≠ [] := fun heq => nil_not_mem_paths rest (heq ▸ hmem)
    rcases (prefix_cons_iff_of_ne_nil key tail path).mp ⟨hne, hpre⟩ with rfl | ⟨tail', _, rfl⟩
    · exact h hmem
    · exact h (mem_paths_of_prefix_of_mem rest hmem (by simp) (by simp [List.cons_prefix_cons]))
  simp only [Ordered, paths_branch, List.cons_append, List.pairwise_cons, List.pairwise_append,
    List.pairwise_map, List.forall_mem_append, List.forall_mem_map, List.cons_prefix_cons,
    true_and]
  grind

lemma ordered_chain (keys : List String) : (chain keys).Ordered := by
  induction keys with
  | nil => simp [chain, Ordered]
  | cons key keys ih =>
    rw [chain, ordered_branch_iff]
    exact ⟨ih, by simp [Ordered], by simp⟩

/-- Insertion keeps the order, whatever is inserted. -/
theorem ordered_insert {tree : PathTree} (h : tree.Ordered) (keys : List String) :
    (tree.insert keys).Ordered := by
  induction tree, keys using insert.induct with
  | case1 tree => simpa using h
  | case2 key keys => exact ordered_chain _
  | case3 below rest key keys ih =>
    rw [ordered_branch_iff] at h
    rw [insert, if_pos rfl, ordered_branch_iff]
    exact ⟨ih h.1, h.2⟩
  | case4 k below rest key keys hkey ih =>
    rw [ordered_branch_iff] at h
    have hnew : ¬ [k] <+: key :: keys := fun hpre => hkey (List.cons_prefix_cons.mp hpre).1
    rw [insert, if_neg hkey, ordered_branch_iff, mem_paths_insert]
    exact ⟨h.1, ih h.2.1, by simp [h.2.2, hnew]⟩

theorem ordered_ofPaths (keyLists : List (List String)) : (ofPaths keyLists).Ordered := by
  induction keyLists using List.reverseRecOn with
  | nil => simp [ofPaths, Ordered]
  | append_singleton keyLists keys ih =>
    rw [ofPaths_concat]
    exact ordered_insert ih keys

lemma segments_stepsBelow (tree : PathTree) {parents : List String} (h : parents ≠ []) :
    (tree.stepsBelow parents).map Lookup.segments = tree.paths.map (parents ++ ·) := by
  induction tree generalizing parents with
  | empty => simp [stepsBelow]
  | branch key below rest ihbelow ihrest =>
    have hbelow := @ihbelow (parents ++ [key]) (by simp)
    simp [stepsBelow, h, hbelow, ihrest h, Lookup.segments, Function.comp_def]

/-- A branch at the top is no object to look up, and every other one is. -/
theorem segments_steps (tree : PathTree) :
    tree.steps.map Lookup.segments = tree.paths.filter (2 ≤ ·.length) := by
  induction tree with
  | empty => simp [steps, stepsBelow]
  | branch key below rest _ ihrest =>
    have hlong : (below.paths.map (key :: ·)).filter (2 ≤ ·.length) =
        below.paths.map (key :: ·) := by
      rw [List.filter_eq_self]
      intro path hpath
      obtain ⟨tail, htail, rfl⟩ := List.mem_map.mp hpath
      have hne : tail ≠ [] := fun heq => nil_not_mem_paths below (heq ▸ htail)
      have := List.length_pos_iff.mpr hne
      simpa using by omega
    have hbelow := segments_stepsBelow below (List.cons_ne_nil key [])
    rw [steps] at ihrest ⊢
    simp only [stepsBelow, List.isEmpty_nil, if_true, List.nil_append, List.map_append, hbelow,
      ihrest, paths_branch, List.cons_append, List.filter_cons, List.filter_append, hlong]
    simp

end PathTree

/-- An object is looked up if it is on the way to a value and is not the document itself. -/
theorem mem_segments_decodePlan (jsonPaths : List String) (segments : List String) :
    segments ∈ (decodePlan jsonPaths).map Lookup.segments ↔
      2 ≤ segments.length ∧ ∃ path ∈ jsonPaths, segments <+: (JsonPath.rooted path).1 := by
  rw [decodePlan, PathTree.segments_steps, List.mem_filter, PathTree.mem_paths_ofPaths]
  simp only [List.mem_map, decide_eq_true_eq]
  grind

/-- No object is looked up before one on the way to it. -/
theorem ordered_segments_decodePlan (jsonPaths : List String) :
    ((decodePlan jsonPaths).map Lookup.segments).Pairwise
      fun earlier later => ¬ later <+: earlier := by
  rw [decodePlan, PathTree.segments_steps]
  exact List.Pairwise.filter _ (PathTree.ordered_ofPaths _)

/-- No object is looked up twice. -/
theorem nodup_segments_decodePlan (jsonPaths : List String) :
    ((decodePlan jsonPaths).map Lookup.segments).Nodup := by
  refine List.Pairwise.imp (fun hnot heq => ?_) (ordered_segments_decodePlan jsonPaths)
  exact hnot (heq ▸ List.prefix_rfl)

/-- A plan looks up each object on the way from the document to a value once, and no other. -/
theorem decodePlan_exact (jsonPaths : List String) :
    ((decodePlan jsonPaths).map Lookup.segments).Nodup ∧
      ∀ segments, segments ∈ (decodePlan jsonPaths).map Lookup.segments ↔
        2 ≤ segments.length ∧ ∃ path ∈ jsonPaths,
          segments <+: JsonPath.rootSegment :: (JsonPath.segments path).dropLast := by
  refine ⟨nodup_segments_decodePlan jsonPaths, fun segments => ?_⟩
  rw [mem_segments_decodePlan]
  simp only [JsonPath.rooted_eq, JsonPath.parts]

/-- The objects that are at hand once some objects of a plan are looked up: those and the
document. -/
def Reachable (plan : List Lookup) (segments : List String) : Prop :=
  segments = [JsonPath.rootSegment] ∨ segments ∈ plan.map Lookup.segments

lemma Reachable.ne_nil {before : List Lookup} {segments : List String}
    (h : Reachable before segments) : segments ≠ [] := by
  rcases h with rfl | hmem
  · simp
  · obtain ⟨l, _, rfl⟩ := List.mem_map.mp hmem
    simp [Lookup.segments]

/-- What is on the way to a value is at hand after the whole plan. -/
lemma reachable_of_prefix_of_mem {jsonPaths : List String} {path : String} {segments : List String}
    (hpath : path ∈ jsonPaths) (hne : segments ≠ [])
    (hpre : segments <+: (JsonPath.rooted path).1) :
    Reachable (decodePlan jsonPaths) segments := by
  obtain ⟨s, tail, rfl⟩ := List.exists_cons_of_ne_nil hne
  have hroot : s = JsonPath.rootSegment := by
    rw [JsonPath.rooted_eq] at hpre
    exact (List.cons_prefix_cons.mp hpre).1
  cases tail with
  | nil => exact .inl (by rw [hroot])
  | cons s' tail =>
    exact .inr ((mem_segments_decodePlan jsonPaths _).mpr ⟨by simp, path, hpath, hpre⟩)

/-- The object of every value is at hand after the whole plan. -/
theorem reachable_decodePlan {jsonPaths : List String} {path : String} (h : path ∈ jsonPaths) :
    Reachable (decodePlan jsonPaths) (JsonPath.rooted path).1 :=
  reachable_of_prefix_of_mem h (by simp [JsonPath.rooted_eq]) List.prefix_rfl

/-- Every step finds its object in one that is at hand. -/
theorem reachable_parents_of_decodePlan {jsonPaths : List String} {before after : List Lookup}
    {l : Lookup} (h : decodePlan jsonPaths = before ++ l :: after) :
    Reachable before l.parents := by
  have hmem : l.segments ∈ (decodePlan jsonPaths).map Lookup.segments :=
    List.mem_map_of_mem (by simp [h])
  obtain ⟨hlength, path, hpath, hpre⟩ := (mem_segments_decodePlan jsonPaths _).mp hmem
  have hparents : l.parents ≠ [] := by
    rintro hnil
    simp [Lookup.segments, hnil] at hlength
  have hon : l.parents <+: l.segments := List.prefix_append _ _
  rcases reachable_of_prefix_of_mem hpath hparents (hon.trans hpre) with hroot | hplan
  · exact .inl hroot
  · have hordered := ordered_segments_decodePlan jsonPaths
    rw [h, List.map_append, List.map_cons] at hplan hordered
    rw [List.pairwise_append, List.pairwise_cons] at hordered
    rcases List.mem_append.mp hplan with hbefore | hafter
    · exact .inr hbefore
    · rcases List.mem_cons.mp hafter with heq | hafter
      · simp [Lookup.segments] at heq
      · exact absurd hon (hordered.2.1.1 _ hafter)

end BeanForge
