import BeanForge.Proofs.DecodePlan.Order
import Mathlib.Data.List.Perm.Subperm
import Mathlib.Data.Set.Defs
/-!
# Trees with the same paths

Trees count as equal if they have the same branches at every place, in whatever order. For the
trees that insertion builds, where no two siblings have the same key, this is so exactly if the same
segment lists lead to their branches. Such a tree is therefore determined, up to the order of
siblings, by the prefixes of what was inserted, and neither the order of the insertions matters nor
how often each is made.
-/
namespace BeanForge.PathTree

/-- The non-empty prefixes of several paths. -/
def prefixes (paths : List (List String)) : Set (List String) :=
  {s | s ≠ [] ∧ ∃ path ∈ paths, s <+: path}

/-- The keys of the branches at the top. -/
def keys : PathTree → List String
  | empty => []
  | branch key _ rest => key :: rest.keys

lemma length_keys (tree : PathTree) : tree.keys.length = tree.width := by
  induction tree with
  | empty => rfl
  | branch key below rest _ ih => rw [keys, width, List.length_cons, ih]

lemma mem_keys_iff (tree : PathTree) (key : String) : key ∈ tree.keys ↔ [key] ∈ tree.paths := by
  induction tree with
  | empty => simp [keys]
  | branch k below rest _ ih =>
    have hbelow : ¬ ∃ tail ∈ below.paths, k :: tail = [key] := by
      rintro ⟨tail, htail, heq⟩
      exact nil_not_mem_paths below ((List.cons.inj heq).2 ▸ htail)
    rw [keys, List.mem_cons, ih, mem_paths_branch_iff, or_iff_left hbelow]
    simp only [List.cons.injEq, and_true]

lemma Ordered.nodup_keys {tree : PathTree} (h : tree.Ordered) : tree.keys.Nodup := by
  induction tree with
  | empty => exact List.nodup_nil
  | branch key below rest _ ih =>
    obtain ⟨-, hrest, hkey⟩ := (ordered_branch_iff key below rest).mp h
    rw [keys, List.nodup_cons, mem_keys_iff]
    exact ⟨hkey, ih hrest⟩

section Branch

variable {key : String} {below rest : PathTree}

lemma cons_mem_paths_branch_self (h : [key] ∉ rest.paths) (tail : List String) :
    key :: tail ∈ (branch key below rest).paths ↔ tail = [] ∨ tail ∈ below.paths := by
  have hrest : key :: tail ∉ rest.paths := fun hmem => h (head_mem_paths hmem)
  rw [mem_paths_branch_iff]
  simp [hrest]

lemma cons_mem_paths_branch_of_ne {other : String} (h : key ≠ other) (tail : List String) :
    other :: tail ∈ (branch key below rest).paths ↔ other :: tail ∈ rest.paths := by
  rw [mem_paths_branch_iff]
  simp [h, h.symm]

end Branch

/-- A path goes on below the branch of its first key. -/
lemma Ordered.cons_mem_paths_iff {tree : PathTree} (h : tree.Ordered) (key : String)
    (tail : List String) :
    key :: tail ∈ tree.paths ↔
      ∃ found, tree.child? key = some found ∧ (tail = [] ∨ tail ∈ found.paths) := by
  induction tree with
  | empty => simp [child?]
  | branch k below rest _ ih =>
    obtain ⟨-, hrest, hkey⟩ := (ordered_branch_iff k below rest).mp h
    rw [child?]
    by_cases hk : k = key
    · subst hk
      rw [cons_mem_paths_branch_self hkey]
      simp
    · rw [cons_mem_paths_branch_of_ne hk, ih hrest, if_neg hk]

lemma Ordered.of_child? {tree found : PathTree} {key : String} (h : tree.Ordered)
    (hfound : tree.child? key = some found) : found.Ordered := by
  induction tree with
  | empty => simp [child?] at hfound
  | branch k below rest _ ih =>
    obtain ⟨hbelow, hrest, -⟩ := (ordered_branch_iff k below rest).mp h
    rw [child?] at hfound
    split_ifs at hfound with hk
    · exact Option.some.inj hfound ▸ hbelow
    · exact ih hrest hfound

lemma within_branch_iff (key : String) (below rest other : PathTree) :
    (branch key below rest).within other = true ↔
      (∃ found, other.child? key = some found ∧ below.same found = true) ∧
        rest.within other = true := by
  rw [within]
  cases hfound : other.child? key <;> simp [same]

/-- Every branch of the first tree is in the second, with the same paths below it. -/
def Agrees (a b : PathTree) : Prop :=
  ∀ key ∈ a.keys, ∀ tail, key :: tail ∈ a.paths ↔ key :: tail ∈ b.paths

/-- As many branches, all of them found in the other tree, are the same branches. -/
lemma same_iff_of_within_iff {a b : PathTree} (ha : a.Ordered) (hb : b.Ordered)
    (hwithin : a.within b = true ↔ Agrees a b) :
    a.same b = true ↔ ∀ path, path ∈ a.paths ↔ path ∈ b.paths := by
  rw [same, Bool.and_eq_true, beq_iff_eq, hwithin, ← length_keys, ← length_keys]
  constructor
  · rintro ⟨hlength, hagrees⟩ path
    have hsub : a.keys ⊆ b.keys := by
      intro key hkey
      rw [mem_keys_iff, ← hagrees key hkey]
      exact (mem_keys_iff a key).mp hkey
    have hperm : a.keys.Perm b.keys :=
      (List.subperm_of_subset ha.nodup_keys hsub).perm_of_length_le hlength.ge
    cases path with
    | nil => simp [nil_not_mem_paths]
    | cons key tail =>
      by_cases hkey : key ∈ a.keys
      · exact hagrees key hkey tail
      · have hkey' : key ∉ b.keys := mt hperm.mem_iff.mpr hkey
        rw [mem_keys_iff] at hkey hkey'
        exact iff_of_false (mt head_mem_paths hkey) (mt head_mem_paths hkey')
  · intro h
    have hperm : a.keys.Perm b.keys := by
      rw [List.perm_ext_iff_of_nodup ha.nodup_keys hb.nodup_keys]
      exact fun key => by rw [mem_keys_iff, mem_keys_iff, h]
    exact ⟨hperm.length_eq, fun key _ tail => h (key :: tail)⟩

/-- The branches of a tree are looked for one by one, so that the induction is on the first tree
alone: what lies below a branch is compared with what is found under its key. -/
lemma within_iff {a b : PathTree} (ha : a.Ordered) (hb : b.Ordered) :
    a.within b = true ↔ Agrees a b := by
  induction a generalizing b with
  | empty => simp [within, Agrees, keys]
  | branch key below rest ihbelow ihrest =>
    obtain ⟨hbelow, hrest, hkey⟩ := (ordered_branch_iff key below rest).mp ha
    have hhere : (∃ found, b.child? key = some found ∧ below.same found = true) ↔
        ∀ tail, key :: tail ∈ (branch key below rest).paths ↔ key :: tail ∈ b.paths := by
      simp only [cons_mem_paths_branch_self hkey, hb.cons_mem_paths_iff]
      constructor
      · rintro ⟨found, hfound, hsame⟩ tail
        have hfound' := hb.of_child? hfound
        rw [same_iff_of_within_iff hbelow hfound' (ihbelow hbelow hfound')] at hsame
        simp [hfound, hsame]
      · intro h
        obtain ⟨found, hfound, -⟩ := (h []).mp (.inl rfl)
        have hfound' := hb.of_child? hfound
        refine ⟨found, hfound, ?_⟩
        rw [same_iff_of_within_iff hbelow hfound' (ihbelow hbelow hfound')]
        intro tail
        by_cases htail : tail = []
        · simp [htail, nil_not_mem_paths]
        · simpa [hfound, htail] using h tail
    have hthere : Agrees rest b ↔ ∀ other ∈ rest.keys, ∀ tail,
        other :: tail ∈ (branch key below rest).paths ↔ other :: tail ∈ b.paths := by
      refine forall₂_congr fun other hother => forall_congr' fun tail => ?_
      have hne : key ≠ other := fun heq => hkey ((mem_keys_iff rest key).mp (heq ▸ hother))
      rw [cons_mem_paths_branch_of_ne hne]
    rw [within_branch_iff, hhere, ihrest hrest hb, hthere, Agrees, keys, List.forall_mem_cons]

/-- Trees without siblings of the same key are equal up to the order of siblings exactly if the same
segment lists lead to their branches. -/
theorem same_iff {a b : PathTree} (ha : a.Ordered) (hb : b.Ordered) :
    a.same b = true ↔ ∀ path, path ∈ a.paths ↔ path ∈ b.paths :=
  same_iff_of_within_iff ha hb (within_iff ha hb)

/-- A tree does not change when a path to one of its branches is inserted, in the order of its
siblings neither. -/
theorem insert_of_mem_paths {tree : PathTree} (h : tree.Ordered) {path : List String}
    (hmem : path ∈ tree.paths) : tree.insert path = tree := by
  induction tree, path using insert.induct with
  | case1 tree => simp
  | case2 key tail => simp at hmem
  | case3 below rest key tail ih =>
    obtain ⟨hbelow, -, hkey⟩ := (ordered_branch_iff key below rest).mp h
    rw [insert, if_pos rfl]
    rcases (cons_mem_paths_branch_self hkey tail).mp hmem with rfl | htail
    · rw [insert_nil]
    · rw [ih hbelow htail]
  | case4 k below rest key tail hk ih =>
    obtain ⟨-, hrest, -⟩ := (ordered_branch_iff k below rest).mp h
    rw [insert, if_neg hk, ih hrest ((cons_mem_paths_branch_of_ne hk tail).mp hmem)]

lemma mem_paths_ofPaths_iff (paths : List (List String)) (s : List String) :
    s ∈ (ofPaths paths).paths ↔ s ∈ prefixes paths :=
  mem_paths_ofPaths paths s

/-- A tree is determined by the prefixes of what was inserted, up to the order of siblings. -/
theorem same_ofPaths_iff (paths others : List (List String)) :
    (ofPaths paths).same (ofPaths others) = true ↔ prefixes paths = prefixes others := by
  rw [same_iff (ordered_ofPaths paths) (ordered_ofPaths others), Set.ext_iff]
  simp only [mem_paths_ofPaths_iff]

lemma insert_of_prefix_of_mem {paths : List (List String)} {path keys : List String} (h : path ∈ paths)
    (hpre : keys <+: path) : (ofPaths paths).insert keys = ofPaths paths := by
  by_cases hne : keys = []
  · rw [hne, insert_nil]
  · refine insert_of_mem_paths (ordered_ofPaths paths) ?_
    exact (mem_paths_ofPaths paths keys).mpr ⟨hne, path, h, hpre⟩

/-- Up to the order of siblings, trees are equal exactly if the same non-empty prefixes were
inserted, so that neither repeating an insertion nor exchanging two of them matters. What is
inserted again, or only a beginning of it, moves no step of the plan either. -/
theorem ofPaths_canonical (paths : List (List String)) :
    (∀ others, (ofPaths paths).same (ofPaths others) = true ↔ prefixes paths = prefixes others) ∧
    (∀ keys, (((ofPaths paths).insert keys).insert keys).same
      ((ofPaths paths).insert keys) = true) ∧
    (∀ keys more, (((ofPaths paths).insert keys).insert more).same
      (((ofPaths paths).insert more).insert keys) = true) ∧
    ∀ path ∈ paths, ∀ keys, keys <+: path →
      ((ofPaths paths).insert keys).steps = (ofPaths paths).steps := by
  refine ⟨same_ofPaths_iff paths, fun keys => ?_, fun keys more => ?_, ?_⟩
  · rw [← ofPaths_concat, ← ofPaths_concat, same_ofPaths_iff]
    ext s
    simp [prefixes]
  · simp only [← ofPaths_concat, same_ofPaths_iff]
    ext s
    simp [prefixes, or_comm]
  · intro path hpath keys hpre
    rw [insert_of_prefix_of_mem hpath hpre]

/-- The order of the insertions is the order of the siblings, and of nothing else. -/
theorem ofPaths_canonical_swapped :
    let paths := [["root", "a", "b"], ["root", "c"]]
    let swapped := [["root", "c"], ["root", "a"], ["root", "a", "b"]]
    ofPaths paths ≠ ofPaths swapped ∧ (ofPaths paths).same (ofPaths swapped) = true ∧
      ["root", "a", "b"] ∈ paths ∧ ["root", "a"] <+: ["root", "a", "b"] ∧
      ((ofPaths paths).insert ["root", "a"]).steps = (ofPaths paths).steps := by
  intro paths swapped
  have hmem : ["root", "a", "b"] ∈ paths := List.mem_cons_self
  have hpre : ["root", "a"] <+: ["root", "a", "b"] := ⟨["b"], rfl⟩
  exact ⟨by decide, by decide, hmem, hpre, (ofPaths_canonical paths).2.2.2 _ hmem _ hpre⟩

end BeanForge.PathTree
