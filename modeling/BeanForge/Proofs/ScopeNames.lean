import BeanForge.Proofs.Agreement.Positions
import BeanForge.Proofs.Document.Scopes
/-!
# Names joined along a scope

Generated code calls a class by the names that lead to it, joined with a separator or without one.
Such a text need not determine the class: the names are free text, so the end of one may read like
the separator and the next. It does if no two classes of a scope have names of which one can be
continued to look like the other; `nodup_join_scopes` concludes this from one scope at a time.
-/
namespace BeanForge

namespace Text

/-- What can follow a name: nothing, or a separator and something else. -/
def Continues (sep rest : String) : Prop :=
  rest = "" ∨ ∃ more, rest = sep ++ more

/-- Names that are different whatever follows them. -/
def Separable (sep a b : String) : Prop :=
  ∀ u v, Continues sep u → Continues sep v → a ++ u ≠ b ++ v

/-- Joining more pieces continues the text. -/
lemma join_of_leading (sep : String) {pieces all : List String} (h : pieces ≠ [])
    (hlead : pieces <+: all) :
    ∃ rest, Continues sep rest ∧ join sep all = join sep pieces ++ rest := by
  obtain ⟨more, rfl⟩ := hlead
  cases more with
  | nil => exact ⟨"", .inl rfl, by simp⟩
  | cons next more =>
    refine ⟨sep ++ join sep (next :: more), .inr ⟨_, rfl⟩, ?_⟩
    rw [join_append_cons sep h, String.append_assoc]

lemma join_empty (pieces : List String) : join "" pieces = String.join pieces := by
  induction pieces with
  | nil => rfl
  | cons piece pieces ih =>
    cases pieces with
    | nil => simp [String.join_cons]
    | cons next pieces => simp [ih, String.join_cons]

/-- Without a separator, names are separable if neither is the beginning of the other. -/
lemma separable_empty {a b : String} (hab : ¬ a.toList <+: b.toList)
    (hba : ¬ b.toList <+: a.toList) : Separable "" a b := by
  intro u v _ _ heq
  have hlist := congrArg String.toList heq
  rw [String.toList_append, String.toList_append] at hlist
  have ha : a.toList <+: a.toList ++ u.toList := List.prefix_append ..
  have hb : b.toList <+: a.toList ++ u.toList := hlist ▸ List.prefix_append ..
  rcases List.prefix_or_prefix_of_prefix ha hb with h | h
  · exact hab h
  · exact hba h

/-- A name with more behind it that is another name with `::` behind it ends where that does, or
goes on with a colon. -/
lemma eq_or_colon_of_append_eq {a b u v : List Char} (hu : u = [] ∨ [':', ':'] <+: u)
    (h : a ++ u = b ++ v) (hlead : a <+: b) : a = b ∨ a ++ [':'] <+: b := by
  obtain ⟨t, rfl⟩ := hlead
  cases t with
  | nil => exact .inl (by simp)
  | cons c t =>
    refine .inr ?_
    rw [List.append_assoc, List.append_cancel_left_eq] at h
    rcases hu with rfl | ⟨more, rfl⟩
    · cases h
    · obtain ⟨rfl, _⟩ := List.cons.inj h
      exact ⟨t, by simp⟩

lemma toList_of_continues_colons {rest : String} (h : Continues "::" rest) :
    rest.toList = [] ∨ [':', ':'] <+: rest.toList := by
  rcases h with rfl | ⟨more, rfl⟩
  · exact .inl rfl
  · exact .inr ⟨more.toList, by simp⟩

/-- With colons between them, different names are separable if neither goes on with a colon where
the other ends. -/
lemma separable_colons {a b : String} (hne : a ≠ b) (hab : ¬ a.toList ++ [':'] <+: b.toList)
    (hba : ¬ b.toList ++ [':'] <+: a.toList) : Separable "::" a b := by
  intro u v hu hv heq
  have hlist := congrArg String.toList heq
  rw [String.toList_append, String.toList_append] at hlist
  have ha : a.toList <+: a.toList ++ u.toList := List.prefix_append ..
  have hb : b.toList <+: a.toList ++ u.toList := hlist ▸ List.prefix_append ..
  rcases List.prefix_or_prefix_of_prefix ha hb with h | h
  · rcases eq_or_colon_of_append_eq (toList_of_continues_colons hu) hlist h with h | h
    · exact hne (String.toList_injective h)
    · exact hab h
  · rcases eq_or_colon_of_append_eq (toList_of_continues_colons hv) hlist.symm h with h | h
    · exact hne (String.toList_injective h.symm)
    · exact hba h

end Text

namespace Scope

/-- A scope whose classes can be told apart by their names, whatever is joined to these, and none
of which adds nothing to the names before it. -/
structure Separated (sep : String) (x : Scope) : Prop where
  apart : (x.classes.map (·.name)).Pairwise (Text.Separable sep)
  visible : ∀ c ∈ x.classes, sep ++ c.name ≠ ""

lemma Separated.of_sublist {sep : String} {names : List String} {ps qs : List Property}
    (h : Separated sep ⟨names, ps⟩) (hqs : qs.Sublist ps) : Separated sep ⟨names, qs⟩ := by
  have hclasses : (⟨names, qs⟩ : Scope).classes.Sublist (⟨names, ps⟩ : Scope).classes :=
    hqs.filterMap _
  exact ⟨h.apart.sublist (hclasses.map _), fun c hc => h.visible c (hclasses.subset hc)⟩

/-- No class name of the scope is empty or the beginning of another. -/
def BeginningsApart (x : Scope) : Prop :=
  ∀ c ∈ x.classes, c.name ≠ "" ∧
    ∀ e ∈ x.classes, c.name.toList <+: e.name.toList → c.name = e.name

/-- No class name of the scope goes on with a colon where another ends. -/
def ColonsApart (x : Scope) : Prop :=
  ∀ c ∈ x.classes, ∀ e ∈ x.classes, ¬ c.name.toList ++ [':'] <+: e.name.toList

instance (x : Scope) : Decidable x.BeginningsApart :=
  inferInstanceAs (Decidable (∀ c ∈ x.classes, c.name ≠ "" ∧
    ∀ e ∈ x.classes, c.name.toList <+: e.name.toList → c.name = e.name))

instance (x : Scope) : Decidable x.ColonsApart :=
  inferInstanceAs (Decidable (∀ c ∈ x.classes, ∀ e ∈ x.classes,
    ¬ c.name.toList ++ [':'] <+: e.name.toList))

lemma BeginningsApart.separated {x : Scope} (h : x.BeginningsApart)
    (hnodup : (x.classes.map (·.name)).Nodup) : x.Separated "" := by
  refine ⟨hnodup.pairwise_of_forall_ne ?_, fun c hc => by simpa using (h c hc).1⟩
  simp only [List.forall_mem_map]
  intro c hc e he hne
  exact Text.separable_empty (fun hlead => hne ((h c hc).2 e he hlead))
    fun hlead => hne ((h e he).2 c hc hlead).symm

lemma ColonsApart.separated {x : Scope} (h : x.ColonsApart)
    (hnodup : (x.classes.map (·.name)).Nodup) : x.Separated "::" := by
  refine ⟨hnodup.pairwise_of_forall_ne ?_, fun c _ => by simp⟩
  simp only [List.forall_mem_map]
  intro c hc e he hne
  exact Text.separable_colons hne (h c hc e he) (h e he c hc)

end Scope

namespace Property

/-- The names of a scope below others lead through one of the classes declared there. -/
lemma exists_leading_class {names : List String} {ps : List Property} {x : Scope}
    (hx : x ∈ scopesBelow names ps) :
    ∃ c ∈ ps.filterMap (·.nested), names ++ [c.name] <+: x.names := by
  induction ps using scope_induction generalizing names with
  | nil => simp [scopesBelow] at hx
  | cons p ps ihp ihps =>
    rw [scopesBelow, scopesIn_eq, List.mem_append] at hx
    rcases hx with hx | hx
    · cases hc : p.nested with
      | none => simp [hc] at hx
      | some c =>
        have hmem : c ∈ (p :: ps).filterMap (·.nested) := by simp [hc]
        simp only [hc, Option.elim, List.mem_append, List.mem_singleton] at hx
        rcases hx with hx | rfl
        · obtain ⟨_, _, hlead⟩ := ihp c hc hx
          exact ⟨c, hmem, (List.prefix_append ..).trans hlead⟩
        · exact ⟨c, hmem, List.prefix_refl _⟩
    · obtain ⟨c, hc, hlead⟩ := ihps hx
      refine ⟨c, ?_, hlead⟩
      rw [List.filterMap_cons]
      cases p.nested
      · exact hc
      · exact List.mem_cons_of_mem _ hc

lemma exists_join_of_mem (sep : String) {names : List String} (h : names ≠ [])
    {ps : List Property} {x : Scope} (hx : x ∈ scopesBelow names ps) :
    ∃ c ∈ ps.filterMap (·.nested), ∃ rest, Text.Continues sep rest ∧
      Text.join sep x.names = Text.join sep names ++ (sep ++ (c.name ++ rest)) := by
  obtain ⟨c, hc, hlead⟩ := exists_leading_class hx
  obtain ⟨rest, hrest, hjoin⟩ := Text.join_of_leading sep (by simp) hlead
  refine ⟨c, hc, rest, hrest, ?_⟩
  rw [hjoin, Text.join_concat sep h, String.append_assoc, String.append_assoc]

/-- A class is not called like one that it is declared in. -/
lemma join_ne_of_mem (sep : String) {x : Scope} (h : x.names ≠ []) (hx : x.Separated sep)
    {y : Scope} (hy : y ∈ scopesBelow x.names x.properties) :
    Text.join sep y.names ≠ Text.join sep x.names := by
  obtain ⟨c, hc, rest, _, hjoin⟩ := exists_join_of_mem sep h hy
  intro heq
  have hempty : sep ++ (c.name ++ rest) = "" := by simpa [hjoin] using heq
  rw [← String.append_assoc, String.append_eq_empty_iff] at hempty
  exact hx.visible c hc hempty.1

lemma scopesBelow_singleton (names : List String) (p : Property) :
    scopesBelow names [p] = scopesIn names p := by
  simp [scopesBelow]

/-- If the classes of each scope are separable, all classes below a scope are called differently. -/
theorem nodup_join_scopesBelow (sep : String) {names : List String} (hnames : names ≠ [])
    {ps : List Property} (h : ∀ x ∈ ⟨names, ps⟩ :: scopesBelow names ps, x.Separated sep) :
    ((scopesBelow names ps).map fun x => Text.join sep x.names).Nodup := by
  induction ps using scope_induction generalizing names with
  | nil => exact List.nodup_nil
  | cons p ps ihp ihps =>
    have hhere := h _ List.mem_cons_self
    have hbelow : ∀ x ∈ scopesIn names p ++ scopesBelow names ps, x.Separated sep :=
      fun x hx => h x (List.mem_cons_of_mem _ hx)
    -- The class of the first property, the other properties, and that names of one kind are not
    -- names of the other.
    rw [scopesBelow, List.map_append, List.nodup_append]
    refine ⟨?_, ?_, ?_⟩
    · rw [scopesIn_eq] at hbelow ⊢
      cases hc : p.nested with
      | none => exact List.nodup_nil
      | some c =>
        simp only [hc, Option.elim, List.forall_mem_append, List.forall_mem_singleton] at hbelow ⊢
        obtain ⟨⟨hinner, hclass⟩, _⟩ := hbelow
        have hne : names ++ [c.name] ≠ [] := by simp
        have hnodup := ihp c hc hne (List.forall_mem_cons.mpr ⟨hclass, hinner⟩)
        rw [List.map_append, List.map_singleton, List.nodup_append]
        refine ⟨hnodup, List.nodup_singleton _, ?_⟩
        rintro _ hy _ hz rfl
        obtain ⟨y, hy, hjoin⟩ := List.mem_map.mp hy
        exact join_ne_of_mem sep (x := ⟨names ++ [c.name], c.properties⟩) (by simp) hclass hy
          (hjoin.trans (List.mem_singleton.mp hz))
    · have htail : Scope.Separated sep ⟨names, ps⟩ := hhere.of_sublist (List.sublist_cons_self p ps)
      exact ihps hnames (List.forall_mem_cons.mpr
        ⟨htail, fun x hx => hbelow x (List.mem_append_right _ hx)⟩)
    · -- Two such names go on from different classes of this scope.
      rintro _ hleft _ hright rfl
      obtain ⟨y, hy, rfl⟩ := List.mem_map.mp hleft
      obtain ⟨z, hz, heq⟩ := List.mem_map.mp hright
      rw [← scopesBelow_singleton] at hy
      obtain ⟨c, hc, u, hu, hyjoin⟩ := exists_join_of_mem sep hnames hy
      obtain ⟨d, hd, v, hv, hzjoin⟩ := exists_join_of_mem sep hnames hz
      have hclasses : (⟨names, p :: ps⟩ : Scope).classes = c :: ps.filterMap (·.nested) := by
        have hnested : p.nested = some c := by simpa using hc
        simp [Scope.classes, hnested]
      have happart := hhere.apart
      rw [hclasses, List.map_cons, List.pairwise_cons] at happart
      have hne := happart.1 d.name (List.mem_map_of_mem hd) u v hu hv
      rw [hyjoin, hzjoin] at heq
      simp only [String.append_right_inj] at heq
      exact hne heq.symm

end Property

namespace Schema

/-- If the classes of each scope are separable, all nested classes are called differently. -/
theorem nodup_join_nestedScopes (s : Schema) {sep : String}
    (h : ∀ x ∈ s.scopes, x.Separated sep) :
    (s.nestedScopes.map fun x => Text.join sep x.names).Nodup := by
  have hroot : s.rootScope ∈ s.scopes := List.mem_append_right _ List.mem_cons_self
  refine Property.nodup_join_scopesBelow sep (by simp) (List.forall_mem_cons.mpr ⟨?_, ?_⟩)
  · exact h s.rootScope hroot
  · exact fun x hx => h x (List.mem_append_left _ hx)

/-- And so are all classes, the root class included. -/
theorem nodup_join_scopes (s : Schema) {sep : String} (h : ∀ x ∈ s.scopes, x.Separated sep) :
    (s.scopes.map fun x => Text.join sep x.names).Nodup := by
  have hroot : s.rootScope ∈ s.scopes := List.mem_append_right _ List.mem_cons_self
  rw [scopes, List.map_append, List.map_singleton, List.nodup_append]
  refine ⟨s.nodup_join_nestedScopes h, List.nodup_singleton _, ?_⟩
  rintro _ hnested _ hlast rfl
  obtain ⟨y, hy, hjoin⟩ := List.mem_map.mp hnested
  exact Property.join_ne_of_mem sep (s.names_ne_nil hroot) (h _ hroot) hy
    (hjoin.trans (List.mem_singleton.mp hlast))

end Schema

end BeanForge
