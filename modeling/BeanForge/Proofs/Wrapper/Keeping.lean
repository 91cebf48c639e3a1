import BeanForge.Proofs.Wrapper.Views
/-!
# What wrappers keep up

`Keeps` says what the functions of a wrapper have to do: take a view of one value to a view of
another, and emit the signals that are due. A wrapper that is constructed is a view of the value it
takes over, and its whole value is the one that it shows, if the wrappers of its children do what
they have to.
-/
namespace BeanForge.Wrapper

variable {α : Type}

/-- A wrapper class that does what it should for the class of a scope. -/
structure Keeps (s : Schema) (x : Scope) (b : Behaviour α) : Prop where
  adopt : ∀ d, FitsClass x.properties d → ∃ o, b.adopt d = some o ∧ Views s x o d
  data : ∀ o d, Views s x o d → b.data o = some d
  update : ∀ o before after, Views s x o before → FitsClass x.properties after →
    ∃ o' emitted, b.update after o = some (o', emitted) ∧ Views s x o' after ∧
      (Call.update after).Announces x.properties before emitted
  set : ∀ o d, Views s x o d → ∀ p ∈ x.properties, p.access = .readWrite →
    isSingleClass p = false → ∀ v, FitsProperty p v →
      ∃ o' emitted, b.set (MemberName.setter p.name) v o = some (o', emitted) ∧
        Views s x o' (d.setField p.name v) ∧
        (Call.set [] p.name v).Announces x.properties d emitted
  shows : ∀ o d, Views s x o d → ∀ p ∈ x.properties, isSingleClass p = false →
    b.show? (MemberName.getter p.typeName p.name) o = d.field? p.name
  leads : ∀ p ∈ x.properties, isSingleClass p = true → b.child? p.name = some p.name

/-- The wrapper of a scope is among those that are known, and does what it should. -/
def Knows (s : Schema) (known : Behaviours α) (x : Scope) : Prop :=
  ∃ b, known.lookup (name (s.wrapped x)) = some b ∧ Keeps s x b

/-- The wrappers of the classes that a scope opens are known. -/
def KnowsInner (s : Schema) (known : Behaviours α) (x : Scope) : Prop :=
  ∀ p ∈ x.properties, ∀ c, p.nested = some c → Knows s known (x.inner c)

def childOf (x : Scope) (p : Property) : Child :=
  ⟨p.name, ((p.member Target.qtbean.profile x.names).qt.bind (·.wrapper)).getD "",
    MemberName.getter p.typeName p.name⟩

section

variable {s : Schema} {x : Scope} {known : Behaviours α} {p : Property}

lemma mem_wrapped (s : Schema) (hp : p ∈ x.properties) :
    p.member Target.qtbean.profile x.names ∈ (s.wrapped x).members :=
  List.mem_map_of_mem hp

lemma members_wrapped (s : Schema) (x : Scope) : (s.wrapped x).members =
    x.properties.map (Property.member Target.qtbean.profile x.names) :=
  rfl

lemma isChild_eq (names : List String) (p : Property) :
    isChild (p.member Target.qtbean.profile names) = isSingleClass p := by
  rw [Bool.eq_iff_iff, isChild_member_iff, isSingleClass]
  simp [and_comm]

lemma children_wrapped (s : Schema) (x : Scope) :
    children (s.wrapped x) = (x.properties.filter isSingleClass).map (childOf x) := by
  rw [children, members_wrapped, List.filter_map, List.map_map]
  simp only [Function.comp_def, isChild_eq]
  rfl

/-- The wrapper of a child is that of the class of its property. -/
lemma wrapper_childOf (s : Schema) {c : NestedClass} (hc : p.nested = some c) :
    (childOf x p).wrapper = name (s.wrapped (x.inner c)) := by
  rw [name_classAt_inner]
  exact wrapper_of_class hc

lemma get?_wrapped (hx : Distinct s x) (hp : p ∈ x.properties) (d : Datum α) :
    d.get? (s.wrapped x) (MemberName.getter p.typeName p.name) = d.field? p.name :=
  hx.unambiguous.get? (mem_wrapped s hp) d

/-- A child is created that shows the field of its property. -/
lemma adoptChild_childOf (hx : Distinct s x) {d : Datum α} (hd : FitsClass x.properties d)
    (hp : p ∈ x.properties) (hsingle : isSingleClass p = true) {c : NestedClass}
    (hc : p.nested = some c) (hknown : Knows s known (x.inner c)) :
    ∃ child v, adoptChild known (s.wrapped x) d (childOf x p) = some (p.name, child) ∧
      d.field? p.name = some v ∧ Views s (x.inner c) child v := by
  obtain ⟨b, hb, hkeeps⟩ := hknown
  obtain ⟨v, hv, hfits⟩ := hd.exists_field hx.names hp
  rw [fitsProperty_iff_of_class hsingle hc] at hfits
  obtain ⟨child, hadopt, hviews⟩ := hkeeps.adopt v hfits
  have hget := (get?_wrapped hx hp d).trans hv
  refine ⟨child, v, ?_, hv, hviews⟩
  simp only [adoptChild, wrapper_childOf s hc, hb, Option.bind_eq_bind, Option.bind_some]
  simp [childOf, hget, hadopt]

/-- Children are created for the properties that are single classes. -/
lemma adoptChildren (hx : Distinct s x) {d : Datum α} (hd : FitsClass x.properties d)
    {ps : List Property} (hps : ∀ p ∈ ps, p ∈ x.properties ∧ isSingleClass p = true)
    (hnames : (ps.map (·.name)).Nodup) (hknown : KnowsInner s known x) :
    ∃ children, (ps.map (childOf x)).mapM (adoptChild known (s.wrapped x) d) = some children ∧
      ∀ p ∈ ps, ∀ c, p.nested = some c →
        ShowsField s x (.mk (name (s.wrapped x)) d children) d p c := by
  induction ps with
  | nil => exact ⟨[], rfl, by simp⟩
  | cons p ps ih =>
    obtain ⟨⟨hp, hsingle⟩, hrest⟩ := List.forall_mem_cons.mp hps
    obtain ⟨children, hchildren, hshown⟩ := ih hrest (List.nodup_cons.mp hnames).2
    obtain ⟨_, c, hc⟩ := isSingleClass_iff.mp hsingle
    obtain ⟨child, v, hadopt, hv, hviews⟩ :=
      adoptChild_childOf hx hd hp hsingle hc (hknown p hp c hc)
    refine ⟨(p.name, child) :: children, ?_, ?_⟩
    · exact Fallible.mapM_cons_eq_some_iff.mpr ⟨_, _, hadopt, hchildren, rfl⟩
    · intro q hq c' hc'
      rcases List.mem_cons.mp hq with rfl | hq
      · obtain rfl := Option.some.inj (hc.symm.trans hc')
        exact ⟨child, v, List.lookup_cons_self, hv, hviews⟩
      · obtain ⟨child', w, hchild', hw, hviews'⟩ := hshown q hq c' hc'
        refine ⟨child', w, ?_, hw, hviews'⟩
        exact (lookup_cons_of_nodup hnames hq child children).trans hchild'

lemma mem_singleClasses (h : p ∈ x.properties.filter isSingleClass) :
    p ∈ x.properties ∧ isSingleClass p = true :=
  List.mem_filter.mp h

lemma nodup_filter_names (hx : Distinct s x) (P : Property → Bool) :
    ((x.properties.filter P).map (·.name)).Nodup :=
  hx.names.sublist (List.filter_sublist.map _)

/-- A wrapper that takes a value over is a view of it. -/
theorem runAdopt_wrapped (hx : Distinct s x) (hknown : KnowsInner s known x) {d : Datum α}
    (hd : FitsClass x.properties d) :
    ∃ o, runAdopt known (s.wrapped x) d = some o ∧ Views s x o d := by
  obtain ⟨children, hchildren, hshown⟩ := adoptChildren hx hd (fun _ => mem_singleClasses)
    (nodup_filter_names hx isSingleClass) hknown
  refine ⟨.mk (name (s.wrapped x)) d children, ?_, ?_⟩
  · simp only [runAdopt, lookup_adopt, children_wrapped, hchildren, Option.bind_eq_bind,
      Option.bind_some, Option.pure_def]
  · refine views_of_showsField rfl hd (fun _ _ _ => rfl) fun p hp hsingle c hc => ?_
    exact hshown p (List.mem_filter.mpr ⟨hp, hsingle⟩) c hc

/-- A part of the whole value is the field of its property. -/
lemma partValue_wrapped (hx : Distinct s x) (hknown : KnowsInner s known x) {o : Object α}
    {d : Datum α} (h : Views s x o d) (hp : p ∈ x.properties) :
    partValue known (s.wrapped x) o
      (if isSingleClass p then .child p.name else .value (MemberName.getter p.typeName p.name)) =
        d.field? p.name := by
  cases hsingle : isSingleClass p with
  | false => exact (get?_wrapped hx hp o.data).trans (h.field?_eq hp hsingle)
  | true =>
    obtain ⟨_, c, hc⟩ := isSingleClass_iff.mp hsingle
    obtain ⟨child, v, hchild, hv, hviews⟩ := h.showsField hx hp hsingle hc
    obtain ⟨b, hb, hkeeps⟩ := hknown p hp c hc
    simp only [if_true, partValue, hchild, hviews.wrapper_eq, hb, Option.bind_eq_bind,
      Option.bind_some, hkeeps.data child v hviews, hv]

/-- The whole value of a view is the one that it shows. -/
theorem runData_wrapped (hx : Distinct s x) (hknown : KnowsInner s known x) {o : Object α}
    {d : Datum α} (h : Views s x o d) : runData known (s.wrapped x) o = some d := by
  obtain ⟨vs, hvs, hd⟩ := h.fits.fields hx.names
  have hparts : (valueParts (s.wrapped x)).mapM (partValue known (s.wrapped x) o) = some vs := by
    rw [valueParts, members_wrapped, List.map_map, List.mapM_map, ← hvs]
    refine Fallible.mapM_congr fun p hp => ?_
    simp only [Function.comp_apply, isChild_eq]
    exact partValue_wrapped hx hknown h hp
  have hlength : vs.length = (s.wrapped x).members.length := by
    rw [members_wrapped, List.length_map]
    exact (Fallible.forall₂_of_mapM_eq_some hvs).length_eq.symm
  have hnames : (s.wrapped x).members.map (·.name) = x.properties.map (·.name) := by
    rw [members_wrapped, List.map_map]
    rfl
  simp only [runData, lookup_data, hparts, Option.bind_eq_bind, Option.bind_some]
  rw [Datum.construct?, if_pos hlength, hnames, hd]

end

end BeanForge.Wrapper
