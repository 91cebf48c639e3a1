import BeanForge.Proofs.Wrapper.Values
/-!
# Signals that are due

How the signals that are due for a class are made up: those of its own properties, and those inside
its single classes, which are told apart by the property that they are reached through.
-/
namespace BeanForge.Wrapper

variable {α : Type} {p : Property} {ps : List Property}

/-- Whether changes of a property are announced in the wrapper of its class. -/
def isAnnounced (p : Property) : Bool :=
  !isSingleClass p && p.access != .const

lemma isSingleClass_of_isAnnounced (h : isAnnounced p = true) : isSingleClass p = false := by
  simp only [isAnnounced, Bool.and_eq_true, Bool.not_eq_true'] at h
  exact h.1

lemma due_nil_iff (before after : Datum α) (property : String) :
    Due ps before after [] property ↔ ∃ p ∈ ps, isAnnounced p = true ∧
      before.field? p.name ≠ after.field? p.name ∧ p.name = property := by
  rw [Due]
  refine exists_congr fun p => and_congr_right fun _ => ?_
  constructor
  · rintro ⟨rfl, haccess, hplain, hne⟩
    exact ⟨by simp [isAnnounced, haccess, hplain], hne, rfl⟩
  · rintro ⟨hannounced, hne, rfl⟩
    simp only [isAnnounced, Bool.and_eq_true, Bool.not_eq_true', bne_iff_ne] at hannounced
    exact ⟨rfl, hannounced.2, hannounced.1, hne⟩

/-- Only single classes have signals inside. -/
lemma due_singleClasses_iff (before after : Datum α) (step : String) (path : List String)
    (property : String) :
    Due (ps.filter isSingleClass) before after (step :: path) property ↔
      Due ps before after (step :: path) property := by
  simp only [Due, List.mem_filter]
  refine exists_congr fun p => ?_
  constructor
  · rintro ⟨⟨hp, _⟩, hrest⟩
    exact ⟨hp, hrest⟩
  · rintro ⟨hp, hrest⟩
    exact ⟨⟨hp, hrest.2.1⟩, hrest⟩

/-- A signal is due inside the class of the first property or of another one. -/
lemma due_cons_iff (before after : Datum α) (step : String) (path : List String)
    (property : String) :
    Due (p :: ps) before after (step :: path) property ↔
      Due [p] before after (step :: path) property ∨
        Due ps before after (step :: path) property := by
  simp only [Due, List.exists_mem_cons_iff, List.not_mem_nil, false_and, exists_false, or_false]

lemma due_singleton_iff {before after b a : Datum α} (hsingle : isSingleClass p = true)
    {c : NestedClass} (hc : p.nested = some c) (hb : before.field? p.name = some b)
    (ha : after.field? p.name = some a) (step : String) (path : List String) (property : String) :
    Due [p] before after (step :: path) property ↔
      step = p.name ∧ Due c.properties b a path property := by
  simp only [Due, List.mem_singleton, exists_eq_left, hsingle, true_and, hc, Option.some.injEq]
  constructor
  · rintro ⟨rfl, c', b', a', rfl, hb', ha', hdue⟩
    obtain rfl := Option.some.inj (hb.symm.trans hb')
    obtain rfl := Option.some.inj (ha.symm.trans ha')
    exact ⟨rfl, hdue⟩
  · rintro ⟨rfl, hdue⟩
    exact ⟨rfl, c, b, a, rfl, hb, ha, hdue⟩

lemma mem_names_of_due {before after : Datum α} {step : String} {path : List String}
    {property : String} (h : Due ps before after (step :: path) property) :
    step ∈ ps.map (·.name) := by
  obtain ⟨p, hp, rfl, _⟩ := h
  exact List.mem_map_of_mem hp

lemma Emission.below_injective (property : String) :
    Function.Injective (Emission.below property) := by
  rintro ⟨path, name⟩ ⟨path', name'⟩ h
  obtain ⟨hpath, rfl⟩ := Emission.mk.inj h
  obtain ⟨_, rfl⟩ := List.cons.inj hpath
  rfl

/-- What a child emits is, seen from its parent, what is due in the class of its property. -/
lemma announces_below {before after b a : Datum α} (hsingle : isSingleClass p = true)
    {c : NestedClass} (hc : p.nested = some c) (hb : before.field? p.name = some b)
    (ha : after.field? p.name = some a) {emitted : List Emission}
    (h : (Call.update a).Announces c.properties b emitted) :
    (emitted.map (Emission.below p.name)).Nodup ∧ ∀ path property,
      ⟨path, property⟩ ∈ emitted.map (Emission.below p.name) ↔
        path ≠ [] ∧ Due [p] before after path property := by
  obtain ⟨hnodup, hemitted⟩ := h
  constructor
  · exact hnodup.map (Emission.below_injective p.name)
  · intro path property
    rw [List.mem_map]
    cases path with
    | nil => simp [Emission.below]
    | cons step path =>
      rw [due_singleton_iff hsingle hc hb ha, ← hemitted]
      constructor
      · rintro ⟨⟨path', property'⟩, hmem, heq⟩
        obtain ⟨hpath, rfl⟩ := Emission.mk.inj heq
        obtain ⟨rfl, rfl⟩ := List.cons.inj hpath
        exact ⟨by simp, rfl, hmem⟩
      · rintro ⟨_, rfl, hmem⟩
        exact ⟨⟨path, property⟩, hmem, rfl⟩

end BeanForge.Wrapper
