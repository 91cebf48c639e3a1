import BeanForge.Proofs.Wrapper.Keeping
import BeanForge.Proofs.Wrapper.Signals
/-!
# Updates of wrappers

A wrapper that is updated replaces the value that it owns and then updates its children one after
the other. Each of them compares its own value with the new one, so that the signals of a child are
those that are due inside the class of its property, whatever the wrapper owned before.
-/
namespace BeanForge.Wrapper

variable {α : Type} {s : Schema} {x : Scope} {known : Behaviours α} {p : Property}

/-- A child is updated to the field of its property in the value that is owned now. -/
lemma updateChild_childOf (hx : Distinct s x) {r : Reaction α} {before : Datum α}
    (hafter : FitsClass x.properties r.1.data) (hp : p ∈ x.properties)
    (hsingle : isSingleClass p = true) {c : NestedClass} (hc : p.nested = some c)
    (hknown : Knows s known (x.inner c)) (hshows : ShowsField s x r.1 before p c) :
    ∃ child emitted b a, before.field? p.name = some b ∧ r.1.data.field? p.name = some a ∧
      updateChild known (s.wrapped x) r (childOf x p) = some (r.1.setChild p.name child,
        r.2 ++ emitted.map (Emission.below p.name)) ∧
      Views s (x.inner c) child a ∧ (Call.update a).Announces c.properties b emitted := by
  obtain ⟨old, b, hold, hb, hviews⟩ := hshows
  obtain ⟨behaviour, hbehaviour, hkeeps⟩ := hknown
  obtain ⟨a, ha, hfits⟩ := hafter.exists_field hx.names hp
  rw [fitsProperty_iff_of_class hsingle hc] at hfits
  obtain ⟨child, emitted, hupdate, hviews', hannounces⟩ := hkeeps.update old b a hviews hfits
  have hget := (get?_wrapped hx hp r.1.data).trans ha
  refine ⟨child, emitted, b, a, hb, ha, ?_, hviews', hannounces⟩
  simp [updateChild, childOf, hold, hviews.wrapper_eq, hbehaviour, hget, hupdate]

/-- A wrapper after the children of some properties were updated to the fields of the value that it
owns, and the signals that they emitted. -/
structure Updated (s : Schema) (x : Scope) (before : Datum α) (ps : List Property)
    (start o : Object α) (emitted : List Emission) : Prop where
  wrapper : o.wrapper = start.wrapper
  data : o.data = start.data
  others : ∀ other, other ∉ ps.map (·.name) → o.child? other = start.child? other
  shows : ∀ p ∈ ps, ∀ c, p.nested = some c → ShowsField s x o start.data p c
  nodup : emitted.Nodup
  due : ∀ path property, ⟨path, property⟩ ∈ emitted ↔
    path ≠ [] ∧ Due ps before start.data path property

lemma updated_nil (s : Schema) (x : Scope) (before : Datum α) (o : Object α) :
    Updated s x before [] o o [] := by
  refine ⟨rfl, rfl, fun _ _ => rfl, by simp, List.nodup_nil, fun path property => ?_⟩
  cases path <;> simp [Due]

/-- One child more is updated before the others. -/
lemma Updated.cons {before b a : Datum α} {ps : List Property} {start o child : Object α}
    (hsingle : isSingleClass p = true) {c : NestedClass} (hc : p.nested = some c)
    (hfresh : p.name ∉ ps.map (·.name)) (hpresent : (start.child? p.name).isSome)
    (hb : before.field? p.name = some b) (ha : start.data.field? p.name = some a)
    (hviews : Views s (x.inner c) child a) {emitted more : List Emission}
    (hannounces : (Call.update a).Announces c.properties b emitted)
    (h : Updated s x before ps (start.setChild p.name child) o more) :
    Updated s x before (p :: ps) start o (emitted.map (Emission.below p.name) ++ more) := by
  obtain ⟨hwrapper, hdata, hothers, hshows, hnodup, hdue⟩ := h
  simp only [Object.wrapper_setChild, Object.data_setChild] at hwrapper hdata hshows hdue
  obtain ⟨hbelow, hmem⟩ := announces_below hsingle hc hb ha hannounces
  refine ⟨hwrapper, hdata, ?_, ?_, ?_, ?_⟩
  · intro other hother
    rw [List.map_cons, List.mem_cons, not_or] at hother
    rw [hothers other hother.2, Object.child?_setChild, if_neg hother.1]
  · intro q hq c' hc'
    rcases List.mem_cons.mp hq with rfl | hq
    · obtain rfl := Option.some.inj (hc.symm.trans hc')
      obtain ⟨old, hold⟩ := Option.isSome_iff_exists.mp hpresent
      refine ⟨child, a, ?_, ha, hviews⟩
      rw [hothers q.name hfresh, Object.child?_setChild, if_pos rfl, hold, Option.map_some]
    · exact hshows q hq c' hc'
  · -- The signals of a child start with the name of its property.
    refine List.nodup_append.mpr ⟨hbelow, hnodup, ?_⟩
    rintro ⟨path, property⟩ he _ he' rfl
    obtain ⟨hpath, hp⟩ := (hmem path property).mp he
    obtain ⟨_, hps⟩ := (hdue path property).mp he'
    obtain ⟨step, path, rfl⟩ := List.exists_cons_of_ne_nil hpath
    obtain ⟨rfl, _⟩ := (due_singleton_iff hsingle hc hb ha _ _ _).mp hp
    exact hfresh (mem_names_of_due hps)
  · intro path property
    rw [List.mem_append, hmem, hdue, ← and_or_left]
    refine and_congr_right fun hpath => ?_
    obtain ⟨step, path, rfl⟩ := List.exists_cons_of_ne_nil hpath
    exact (due_cons_iff before start.data step path property).symm

/-- Updates reach each child of several properties once, and emit what is due in them. -/
theorem updateChildren (hx : Distinct s x) (hknown : KnowsInner s known x) {before : Datum α}
    {ps : List Property}
    (hps : ∀ p ∈ ps, p ∈ x.properties ∧ isSingleClass p = true)
    (hnames : (ps.map (·.name)).Nodup) (r : Reaction α) (hafter : FitsClass x.properties r.1.data)
    (hshows : ∀ p ∈ ps, ∀ c, p.nested = some c → ShowsField s x r.1 before p c) :
    ∃ o more, (ps.map (childOf x)).foldlM (updateChild known (s.wrapped x)) r =
      some (o, r.2 ++ more) ∧ Updated s x before ps r.1 o more := by
  induction ps generalizing r with
  | nil => exact ⟨r.1, [], by simp, updated_nil s x before r.1⟩
  | cons p ps ih =>
    obtain ⟨⟨hp, hsingle⟩, hrest⟩ := List.forall_mem_cons.mp hps
    obtain ⟨hfresh, hdistinct⟩ := List.nodup_cons.mp hnames
    obtain ⟨_, c, hc⟩ := isSingleClass_iff.mp hsingle
    have hfirst := hshows p List.mem_cons_self c hc
    obtain ⟨child, emitted, b, a, hb, ha, hupdate, hviews, hannounces⟩ :=
      updateChild_childOf hx hafter hp hsingle hc (hknown p hp c hc) hfirst
    have hrestShows : ∀ q ∈ ps, ∀ c, q.nested = some c →
        ShowsField s x (r.1.setChild p.name child) before q c := by
      intro q hq c' hc'
      obtain ⟨child', w, hchild', hw, hviews'⟩ := hshows q (List.mem_cons_of_mem p hq) c' hc'
      have hne : q.name ≠ p.name := fun heq => hfresh (List.mem_map.mpr ⟨q, hq, heq⟩)
      refine ⟨child', w, ?_, hw, hviews'⟩
      rwa [Object.child?_setChild, if_neg hne]
    obtain ⟨o, more, hfold, hupdated⟩ := ih hrest hdistinct
      (r.1.setChild p.name child, r.2 ++ emitted.map (Emission.below p.name))
      (by simpa using hafter) hrestShows
    obtain ⟨old, _, hold, _⟩ := hfirst
    refine ⟨o, emitted.map (Emission.below p.name) ++ more, ?_,
      hupdated.cons hsingle hc hfresh (by simp [hold]) hb ha hviews hannounces⟩
    rw [List.map_cons, List.foldlM_cons, hupdate, ← List.append_assoc]
    exact hfold

lemma watched_wrapped (s : Schema) (x : Scope) :
    watched (s.wrapped x) =
      (x.properties.filter isAnnounced).map fun p =>
        ⟨MemberName.getter p.typeName p.name, p.name⟩ := by
  rw [watched, members_wrapped, List.filter_map, List.map_map]
  simp only [Function.comp_def, notifies, isChild_eq]
  rfl

/-- What changes for the getter of a property is its field in the shown value. -/
lemma differs_wrapped (hx : Distinct s x) {o : Object α} {before after : Datum α}
    (h : Views s x o before) (hafter : FitsClass x.properties after) (hp : p ∈ x.properties)
    (hplain : isSingleClass p = false) [DecidableEq α] :
    differs (s.wrapped x) o.data after ⟨MemberName.getter p.typeName p.name, p.name⟩ =
      some (decide (before.field? p.name ≠ after.field? p.name)) := by
  obtain ⟨b, hb, _⟩ := h.fits.exists_field hx.names hp
  obtain ⟨a, ha, _⟩ := hafter.exists_field hx.names hp
  simp [differs, get?_wrapped hx hp, h.field?_eq hp hplain, hb, ha]

variable [DecidableEq α]

/-- A wrapper announces the changes of its own properties. -/
lemma announcedChanges (hx : Distinct s x) {o : Object α} {before after : Datum α}
    (h : Views s x o before) (hafter : FitsClass x.properties after) :
    ∃ moved, (watched (s.wrapped x)).filterM (differs (s.wrapped x) o.data after) = some moved ∧
      (moved.map fun w => (⟨[], w.property⟩ : Emission)).Nodup ∧
      ∀ path property, ⟨path, property⟩ ∈ (moved.map fun w => (⟨[], w.property⟩ : Emission)) ↔
        path = [] ∧ Due x.properties before after [] property := by
  have hdiffers : ∀ w ∈ watched (s.wrapped x), differs (s.wrapped x) o.data after w =
      some (decide (before.field? w.property ≠ after.field? w.property)) := by
    rw [watched_wrapped]
    simp only [List.forall_mem_map, List.mem_filter]
    rintro p ⟨hp, hannounced⟩
    exact differs_wrapped hx h hafter hp (isSingleClass_of_isAnnounced hannounced)
  refine ⟨_, Fallible.filterM_eq_some hdiffers, ?_, ?_⟩
  · have hnames : ((watched (s.wrapped x)).map (·.property)).Nodup := by
      rw [watched_wrapped, List.map_map]
      exact nodup_filter_names hx isAnnounced
    refine List.Nodup.of_map Emission.property ?_
    rw [List.map_map]
    exact hnames.sublist (List.filter_sublist.map _)
  · intro path property
    rw [due_nil_iff, watched_wrapped]
    simp only [List.mem_map, List.mem_filter, Emission.mk.injEq, decide_eq_true_eq]
    constructor
    · rintro ⟨_, ⟨⟨p, ⟨hp, hannounced⟩, rfl⟩, hne⟩, rfl, rfl⟩
      exact ⟨rfl, p, hp, hannounced, hne, rfl⟩
    · rintro ⟨rfl, p, hp, hannounced, hne, rfl⟩
      exact ⟨_, ⟨⟨p, ⟨hp, hannounced⟩, rfl⟩, hne⟩, rfl, rfl⟩

/-- Replacing the whole value takes a view of the old one to a view of the new one. -/
theorem runUpdate_wrapped (hx : Distinct s x) (hknown : KnowsInner s known x) {o : Object α}
    {before after : Datum α} (h : Views s x o before)
    (hafter : FitsClass x.properties after) :
    ∃ o' emitted, runUpdate known (s.wrapped x) after o = some (o', emitted) ∧
      Views s x o' after ∧ (Call.update after).Announces x.properties before emitted := by
  have hshows : ∀ p ∈ x.properties.filter isSingleClass, ∀ c, p.nested = some c →
      ShowsField s x (o.setData after) before p c := by
    intro p hp c hc
    obtain ⟨hp, hsingle⟩ := mem_singleClasses hp
    obtain ⟨child, v, hchild, hv, hviews⟩ := h.showsField hx hp hsingle hc
    exact ⟨child, v, by rwa [Object.child?_setData], hv, hviews⟩
  obtain ⟨o', more, hfold, hupdated⟩ := updateChildren hx hknown (fun _ => mem_singleClasses)
    (nodup_filter_names hx isSingleClass) (o.setData after, []) (by simpa using hafter) hshows
  obtain ⟨moved, hmoved, hnodup, hannounced⟩ := announcedChanges hx h hafter
  obtain ⟨hwrapper, hdata, _, hfields, hmore, hdue⟩ := hupdated
  simp only [Object.wrapper_setData, Object.data_setData] at hwrapper hdata hfields hdue
  refine ⟨o', more ++ moved.map fun w => ⟨[], w.property⟩, ?_, ?_, ?_, ?_⟩
  · simp only [runUpdate, lookup_update, children_wrapped, hfold, hmoved, Option.bind_eq_bind,
      Option.bind_some, List.nil_append, Option.pure_def]
  · refine views_of_showsField (hwrapper.trans h.wrapper_eq) hafter (fun p _ _ => by rw [hdata]) ?_
    exact fun p hp hsingle => hfields p (List.mem_filter.mpr ⟨hp, hsingle⟩)
  · -- What children emit comes from below, the changes announced here do not.
    refine List.nodup_append.mpr ⟨hmore, hnodup, ?_⟩
    rintro ⟨path, property⟩ he _ he' rfl
    exact ((hdue path property).mp he).1 ((hannounced path property).mp he').1
  · intro path property
    rw [List.mem_append, hdue, hannounced]
    cases path with
    | nil => simp
    | cons step path => simp [due_singleClasses_iff]

end BeanForge.Wrapper
