import BeanForge.Proofs.DecodePlan
/-!
# The order of a decode plan

Siblings of a path tree stand in the order in which they were first mentioned, and nothing that
is inserted later moves them. Flattening therefore goes depth first in order of first mention,
and the steps of a plan stay in their order when more paths are added.
-/
namespace BeanForge

namespace PathTree

/-- Segments come before those that go on from them. Segments that part at some place come in
the order that `first` gives their branches, up to and with that place. -/
def Precedes (first : List String → List String → Prop) (s t : List String) : Prop :=
  (s <+: t ∧ s ≠ t) ∨
    ∃ common a b s' t', s = common ++ a :: s' ∧ t = common ++ b :: t' ∧ a ≠ b ∧
      first (common ++ [a]) (common ++ [b])

/-- Some path through one branch is earlier than every path through the other. -/
def MentionedFirst (paths : List (List String)) (s t : List String) : Prop :=
  ∃ i path, paths[i]? = some path ∧ s <+: path ∧
    ∀ (j : ℕ) other, paths[j]? = some other → t <+: other → i < j

section Precedes

variable {first : List String → List String → Prop} {s t u : List String}

@[simp] lemma precedes_nil_left : Precedes first [] t ↔ t ≠ [] := by
  simp [Precedes, eq_comm]

@[simp] lemma not_precedes_nil_right : ¬ Precedes first s [] := by
  simp [Precedes]

lemma precedes_cons_cons {a b : String} :
    Precedes first (a :: s) (b :: t) ↔
      (a = b ∧ Precedes (fun u v => first (a :: u) (a :: v)) s t) ∨ (a ≠ b ∧ first [a] [b]) := by
  constructor
  · rintro (⟨hpre, hne⟩ | ⟨common, x, y, s', t', hs, ht, hxy, hfirst⟩)
    · obtain ⟨rfl, htail⟩ := List.cons_prefix_cons.mp hpre
      exact .inl ⟨rfl, .inl ⟨htail, fun heq => hne (heq ▸ rfl)⟩⟩
    · cases common with
      | nil =>
        obtain ⟨rfl, rfl⟩ := List.cons.inj hs
        obtain ⟨rfl, rfl⟩ := List.cons.inj ht
        exact .inr ⟨hxy, hfirst⟩
      | cons c common =>
        obtain ⟨rfl, rfl⟩ := List.cons.inj hs
        obtain ⟨rfl, rfl⟩ := List.cons.inj ht
        exact .inl ⟨rfl, .inr ⟨common, x, y, s', t', rfl, rfl, hxy, hfirst⟩⟩
  · rintro (⟨rfl, ⟨hpre, hne⟩ | ⟨common, x, y, s', t', rfl, rfl, hxy, hfirst⟩⟩ | ⟨hab, hfirst⟩)
    · exact .inl ⟨List.cons_prefix_cons.mpr ⟨rfl, hpre⟩, fun heq => hne (List.cons.inj heq).2⟩
    · exact .inr ⟨a :: common, x, y, s', t', rfl, rfl, hxy, hfirst⟩
    · exact .inr ⟨[], a, b, s, t, rfl, rfl, hab, hfirst⟩

lemma Precedes.mono {later : List String → List String → Prop}
    (hmono : ∀ a b, first a b → later a b) (h : Precedes first s t) : Precedes later s t :=
  h.imp_right fun ⟨common, a, b, s', t', hs, ht, hab, hfirst⟩ =>
    ⟨common, a, b, s', t', hs, ht, hab, hmono _ _ hfirst⟩

lemma Precedes.asymm (hasymm : ∀ a b, first a b → ¬ first b a) (h : Precedes first s t) :
    ¬ Precedes first t s := by
  induction s generalizing t first with
  | nil => simp
  | cons a s ih =>
    cases t with
    | nil => simp at h
    | cons b t =>
      rw [precedes_cons_cons] at h ⊢
      rintro (⟨rfl, hback⟩ | ⟨hba, hback⟩)
      · rcases h with ⟨_, h⟩ | ⟨hne, _⟩
        · exact ih (fun _ _ => hasymm _ _) h hback
        · exact hne rfl
      · rcases h with ⟨rfl, _⟩ | ⟨_, h⟩
        · exact hba rfl
        · exact hasymm _ _ h hback

/-- What stands between two lists with a common beginning has this beginning too. -/
lemma Precedes.prefix_between (hasymm : ∀ a b, first a b → ¬ first b a) {root : List String}
    (hsu : Precedes first s u) (hut : Precedes first u t) (hs : root <+: s) (ht : root <+: t) :
    root <+: u := by
  induction root generalizing s t u first with
  | nil => exact List.nil_prefix
  | cons r root ih =>
    obtain ⟨s, rfl⟩ : ∃ s', s = r :: s' := ⟨_, (List.prefix_iff_eq_append.mp hs).symm⟩
    obtain ⟨t, rfl⟩ : ∃ t', t = r :: t' := ⟨_, (List.prefix_iff_eq_append.mp ht).symm⟩
    cases u with
    | nil => simp at hsu
    | cons b u =>
      rw [precedes_cons_cons] at hsu hut
      rcases hsu with ⟨rfl, hsu⟩ | ⟨hrb, hsu⟩
      · rcases hut with ⟨_, hut⟩ | ⟨hne, _⟩
        · have hroot := ih (fun _ _ => hasymm _ _) hsu hut (List.cons_prefix_cons.mp hs).2
            (List.cons_prefix_cons.mp ht).2
          exact List.cons_prefix_cons.mpr ⟨rfl, hroot⟩
        · exact absurd rfl hne
      · rcases hut with ⟨hbr, _⟩ | ⟨_, hut⟩
        · exact absurd hbr.symm hrb
        · exact absurd hut (hasymm _ _ hsu)

end Precedes

section MentionedFirst

variable {paths : List (List String)} {s t : List String}

lemma MentionedFirst.asymm (h : MentionedFirst paths s t) : ¬ MentionedFirst paths t s := by
  rintro ⟨j, other, hj, ht, hback⟩
  obtain ⟨i, path, hi, hs, hbefore⟩ := h
  have hij := hbefore j other hj ht
  have hji := hback i path hi hs
  omega

/-- What is mentioned comes before what is not. -/
lemma mentionedFirst_of_not_mem (hs : ∃ path ∈ paths, s <+: path)
    (ht : ¬ ∃ path ∈ paths, t <+: path) : MentionedFirst paths s t := by
  obtain ⟨path, hpath, hpre⟩ := hs
  obtain ⟨i, hi⟩ := List.mem_iff_getElem?.mp hpath
  refine ⟨i, path, hi, hpre, fun j other hj hother => ?_⟩
  exact absurd ⟨other, List.mem_of_getElem? hj, hother⟩ ht

/-- Later paths do not change what was mentioned first. -/
lemma MentionedFirst.append (h : MentionedFirst paths s t) (more : List (List String)) :
    MentionedFirst (paths ++ more) s t := by
  obtain ⟨i, path, hi, hpre, hbefore⟩ := h
  have hlt : i < paths.length := (List.getElem?_eq_some_iff.mp hi).1
  refine ⟨i, path, by rw [List.getElem?_append_left hlt, hi], hpre, fun j other hj hother => ?_⟩
  by_cases hjlt : j < paths.length
  · rw [List.getElem?_append_left hjlt] at hj
    exact hbefore j other hj hother
  · omega

end MentionedFirst

/-- Of two siblings anywhere in the tree, `first` holds of the one that stands first. -/
def InOrder : (List String → List String → Prop) → PathTree → Prop
  | _, empty => True
  | first, branch key below rest =>
    InOrder (fun s t => first (key :: s) (key :: t)) below ∧ InOrder first rest ∧
      ∀ other, [other] ∈ rest.paths → first [key] [other]

section InOrder

variable {first : List String → List String → Prop}

lemma InOrder.mono {later : List String → List String → Prop} {tree : PathTree}
    (h : tree.InOrder first) (hmono : ∀ a b, first a b → later a b) : tree.InOrder later := by
  induction tree generalizing first later with
  | empty => trivial
  | branch key below rest ihbelow ihrest =>
    exact ⟨ihbelow h.1 fun _ _ => hmono _ _, ihrest h.2.1 hmono,
      fun other hother => hmono _ _ (h.2.2 other hother)⟩

lemma inOrder_chain (keys : List String) : (chain keys).InOrder first := by
  induction keys generalizing first with
  | nil => trivial
  | cons key keys ih => exact ⟨ih, trivial, by simp⟩

lemma head_mem_paths {tree : PathTree} {key : String} {tail : List String}
    (h : key :: tail ∈ tree.paths) : [key] ∈ tree.paths :=
  mem_paths_of_prefix_of_mem tree h (by simp) (by simp [List.cons_prefix_cons])

/-- Insertion keeps siblings in order if what is new comes after all that is there. -/
theorem inOrder_insert (hirrefl : ∀ s, ¬ first s s) {tree : PathTree} (h : tree.InOrder first)
    (keys : List String)
    (hnew : ∀ s ∈ tree.paths, ∀ t, t ≠ [] → t <+: keys → t ∉ tree.paths → first s t) :
    (tree.insert keys).InOrder first := by
  induction tree, keys using insert.induct generalizing first with
  | case1 tree => simpa using h
  | case2 key keys => exact inOrder_chain _
  | case3 below rest key keys ih =>
    obtain ⟨hbelow, hrest, hfirst⟩ := h
    have halone : [key] ∉ rest.paths := fun hmem => hirrefl _ (hfirst key hmem)
    rw [insert, if_pos rfl]
    refine ⟨ih (fun _ => hirrefl _) hbelow fun s hs t ht hpre hnot => ?_, hrest, hfirst⟩
    refine hnew (key :: s) (by simp [hs]) (key :: t) (by simp) (by simpa using hpre) ?_
    rw [mem_paths_branch_iff]
    rintro ((hkey | ⟨tail, htail, hkey⟩) | hmem)
    · exact ht (List.cons.inj hkey).2
    · exact hnot ((List.cons.inj hkey).2 ▸ htail)
    · exact halone (head_mem_paths hmem)
  | case4 k below rest key keys hkey ih =>
    obtain ⟨hbelow, hrest, hfirst⟩ := h
    have hother : ∀ t, t ≠ [] → t <+: key :: keys → t ∉ rest.paths →
        t ∉ (branch k below rest).paths := by
      intro t ht hpre hnot
      obtain ⟨a, tail, rfl⟩ := List.exists_cons_of_ne_nil ht
      have ha : a = key := (List.cons_prefix_cons.mp hpre).1
      rw [mem_paths_branch_iff]
      rintro ((heq | ⟨tail', _, heq⟩) | hmem)
      · exact hkey ((List.cons.inj heq).1.symm.trans ha)
      · exact hkey ((List.cons.inj heq).1.trans ha)
      · exact hnot hmem
    rw [insert, if_neg hkey]
    refine ⟨hbelow, ih hirrefl hrest fun s hs t ht hpre hnot => ?_, fun other hmem => ?_⟩
    · exact hnew s (by simp [hs]) t ht hpre (hother t ht hpre hnot)
    · by_cases hthere : [other] ∈ rest.paths
      · exact hfirst other hthere
      · have hpre := ((mem_paths_insert rest _ _).mp hmem).resolve_left hthere
        exact hnew [k] (by simp) [other] hpre.1 hpre.2 (hother _ hpre.1 hpre.2 hthere)

/-- Flattening a tree whose siblings are in order lists its paths in order. -/
theorem pairwise_precedes_paths (hirrefl : ∀ s, ¬ first s s) {tree : PathTree}
    (h : tree.InOrder first) : tree.paths.Pairwise (Precedes first) := by
  induction tree generalizing first with
  | empty => simp
  | branch key below rest ihbelow ihrest =>
    obtain ⟨hbelow, hrest, hfirst⟩ := h
    have hpairs := @ihbelow (fun s t => first (key :: s) (key :: t)) (fun _ => hirrefl _) hbelow
    have hinner : (below.paths.map (key :: ·)).Pairwise (Precedes first) := by
      rw [List.pairwise_map]
      refine hpairs.imp fun hst => ?_
      exact precedes_cons_cons.mpr (.inl ⟨rfl, hst⟩)
    have hhead : ∀ t ∈ below.paths.map (key :: ·), Precedes first [key] t := by
      rintro t ht
      obtain ⟨tail, htail, rfl⟩ := List.mem_map.mp ht
      have hne : tail ≠ [] := fun heq => nil_not_mem_paths below (heq ▸ htail)
      exact precedes_cons_cons.mpr (.inl ⟨rfl, precedes_nil_left.mpr hne⟩)
    have hacross : ∀ tail, ∀ t ∈ rest.paths, Precedes first (key :: tail) t := by
      intro tail t ht
      have hne : t ≠ [] := fun heq => nil_not_mem_paths rest (heq ▸ ht)
      obtain ⟨other, t, rfl⟩ := List.exists_cons_of_ne_nil hne
      have hlater := hfirst other (head_mem_paths ht)
      exact precedes_cons_cons.mpr (.inr ⟨fun heq => hirrefl _ (heq ▸ hlater), hlater⟩)
    rw [paths_branch, List.pairwise_append, List.pairwise_cons]
    refine ⟨⟨hhead, hinner⟩, ihrest hirrefl hrest, fun s hs t ht => ?_⟩
    rcases List.mem_cons.mp hs with rfl | hs
    · exact hacross [] t ht
    · obtain ⟨tail, _, rfl⟩ := List.mem_map.mp hs
      exact hacross tail t ht

end InOrder

/-- Siblings of a tree stand in the order in which the inserted paths first mention them. -/
theorem inOrder_ofPaths (keyLists : List (List String)) :
    (ofPaths keyLists).InOrder (MentionedFirst keyLists) := by
  induction keyLists using List.reverseRecOn with
  | nil => trivial
  | append_singleton keyLists keys ih =>
    have hnew : ∀ s ∈ (ofPaths keyLists).paths, ∀ t, t ≠ [] → t <+: keys →
        t ∉ (ofPaths keyLists).paths → MentionedFirst keyLists s t := by
      intro s hs t ht _ hnot
      rw [mem_paths_ofPaths] at hs hnot
      exact mentionedFirst_of_not_mem hs.2 fun hmem => hnot ⟨ht, hmem⟩
    have hinsert := inOrder_insert (fun _ h => h.asymm h) ih keys hnew
    rw [ofPaths_concat]
    exact hinsert.mono fun _ _ h => h.append [keys]

/-- Insertion adds steps between those that are there. -/
theorem stepsBelow_sublist_insert (tree : PathTree) (keys parents : List String) :
    (tree.stepsBelow parents).Sublist ((tree.insert keys).stepsBelow parents) := by
  induction tree, keys using insert.induct generalizing parents with
  | case1 tree => simp
  | case2 key keys => simp [stepsBelow]
  | case3 below rest key keys ih =>
    rw [insert, if_pos rfl]
    exact ((List.Sublist.refl _).append (ih _)).append (List.Sublist.refl _)
  | case4 k below rest key keys hkey ih =>
    rw [insert, if_neg hkey]
    exact (List.Sublist.refl _).append (ih _)

end PathTree

/-- More paths never reorder the steps of a plan, nor take one away. -/
theorem decodePlan_sublist_append (jsonPaths more : List String) :
    (decodePlan jsonPaths).Sublist (decodePlan (jsonPaths ++ more)) := by
  have hfold : ∀ (keyLists : List (List String)) (tree : PathTree),
      tree.steps.Sublist (keyLists.foldl PathTree.insert tree).steps := by
    intro keyLists
    induction keyLists with
    | nil => exact fun tree => List.Sublist.refl _
    | cons keys keyLists ih =>
      exact fun tree => (PathTree.stepsBelow_sublist_insert tree keys []).trans (ih _)
  rw [decodePlan, decodePlan, List.map_append, PathTree.ofPaths, PathTree.ofPaths,
    List.foldl_append]
  exact hfold _ _

/-- Of two lists of segments, the first is on the way to the object of a value whose path is
earlier than all those that lead through the second. -/
def MentionedFirst (jsonPaths : List String) : List String → List String → Prop :=
  PathTree.MentionedFirst (jsonPaths.map fun p => (JsonPath.rooted p).1)

/-- A plan lists the objects depth first, in the order in which the paths mention them. -/
theorem pairwise_precedes_decodePlan (jsonPaths : List String) :
    (decodePlan jsonPaths).Pairwise fun l l' =>
      PathTree.Precedes (MentionedFirst jsonPaths) l.segments l'.segments := by
  have hpaths := PathTree.pairwise_precedes_paths (fun _ h => h.asymm h)
    (PathTree.inOrder_ofPaths (jsonPaths.map fun p => (JsonPath.rooted p).1))
  have hsteps := hpaths.filter (2 ≤ ·.length)
  rw [← PathTree.segments_steps, List.pairwise_map] at hsteps
  exact hsteps

/-- Of two steps of a plan, the one that looks up an object on the way to the other comes first,
and if neither does, the one whose branch is mentioned first. Hence every object is found in the
document or in one that is looked up earlier, the steps for what lies below an object stand
together, and more paths leave the order of the steps as it is. -/
theorem decodePlan_order (jsonPaths : List String) :
    (∀ i j (hi : i < (decodePlan jsonPaths).length) (hj : j < (decodePlan jsonPaths).length),
      i < j ↔ PathTree.Precedes (MentionedFirst jsonPaths)
        (decodePlan jsonPaths)[i].segments (decodePlan jsonPaths)[j].segments) ∧
    (∀ before l after, decodePlan jsonPaths = before ++ l :: after →
      Reachable before l.parents) ∧
    (∀ i j k (hij : i < j) (hjk : j < k) (hk : k < (decodePlan jsonPaths).length)
      (root : List String), root <+: (decodePlan jsonPaths)[i].segments →
        root <+: (decodePlan jsonPaths)[k].segments →
          root <+: (decodePlan jsonPaths)[j].segments) ∧
    ∀ more, (decodePlan jsonPaths).Sublist (decodePlan (jsonPaths ++ more)) := by
  have hasymm : ∀ a b, MentionedFirst jsonPaths a b → ¬ MentionedFirst jsonPaths b a :=
    fun _ _ h => h.asymm
  have hpairwise := List.pairwise_iff_getElem.mp (pairwise_precedes_decodePlan jsonPaths)
  refine ⟨fun i j hi hj => ⟨hpairwise i j hi hj, fun hprec => ?_⟩, ?_, ?_, ?_⟩
  · rcases Nat.lt_trichotomy i j with hlt | heq | hgt
    · exact hlt
    · subst heq
      exact absurd hprec (hprec.asymm hasymm)
    · exact absurd hprec ((hpairwise j i hj hi hgt).asymm hasymm)
  · exact fun before l after h => reachable_parents_of_decodePlan h
  · intro i j k hij hjk hk root hi hroot
    exact (hpairwise i j _ _ hij).prefix_between hasymm (hpairwise j k _ _ hjk) hi hroot
  · exact decodePlan_sublist_append jsonPaths

end BeanForge
