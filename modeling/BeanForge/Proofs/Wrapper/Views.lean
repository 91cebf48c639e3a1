import BeanForge.Proofs.Wrapper.Functions
import BeanForge.Proofs.Wrapper.Values
/-!
# Wrappers as views of a value

The value that a wrapper owns is not the value that it shows: what is set in a child stays in the
child, so that the fields of single classes fall behind. `Views` says what holds nevertheless. The
other fields are those of the shown value, and each child shows the field of its property.
-/
namespace BeanForge

/-- The class of a scope in the model for wrappers. -/
abbrev Schema.wrapped (s : Schema) (x : Scope) : ClassModel :=
  s.classAt Target.qtbean.profile x

namespace Wrapper

variable {α : Type}

namespace Object

@[simp] lemma wrapper_setData (o : Object α) (d : Datum α) :
    (o.setData d).wrapper = o.wrapper := by
  cases o; rfl

@[simp] lemma data_setData (o : Object α) (d : Datum α) : (o.setData d).data = d := by
  cases o; rfl

@[simp] lemma child?_setData (o : Object α) (d : Datum α) (property : String) :
    (o.setData d).child? property = o.child? property := by
  cases o; rfl

@[simp] lemma wrapper_setChild (o : Object α) (property : String) (child : Object α) :
    (o.setChild property child).wrapper = o.wrapper := by
  cases o; rfl

@[simp] lemma data_setChild (o : Object α) (property : String) (child : Object α) :
    (o.setChild property child).data = o.data := by
  cases o; rfl

lemma child?_setChild (o : Object α) (property other : String) (child : Object α) :
    (o.setChild property child).child? other =
      if other = property then (o.child? other).map fun _ => child else o.child? other := by
  obtain ⟨_, _, children⟩ := o
  exact lookup_replace children property other child

end Object

/-- A wrapper that shows a value of the class of a scope: what it shows is found in the value that
it owns, and for single classes in its children. -/
inductive Views (s : Schema) : Scope → Object α → Datum α → Prop
  | intro {x : Scope} {o : Object α} {d : Datum α}
      (wrapper : o.wrapper = name (s.wrapped x))
      (shown : FitsClass x.properties d)
      (current : ∀ p ∈ x.properties, isSingleClass p = false →
        o.data.field? p.name = d.field? p.name)
      (present : ∀ p ∈ x.properties, isSingleClass p = true → (o.child? p.name).isSome)
      (children : ∀ p ∈ x.properties, isSingleClass p = true → ∀ c, p.nested = some c →
        ∀ child v, o.child? p.name = some child → d.field? p.name = some v →
          Views s (x.inner c) child v) : Views s x o d

/-- A wrapper that shows a field in the child of its property. -/
def ShowsField (s : Schema) (x : Scope) (o : Object α) (d : Datum α) (p : Property)
    (c : NestedClass) : Prop :=
  ∃ child v, o.child? p.name = some child ∧ d.field? p.name = some v ∧ Views s (x.inner c) child v

/-- What is asked of a scope: names that stand for one thing each, and no class that is a flag. -/
structure Distinct (s : Schema) (x : Scope) : Prop where
  names : (x.properties.map (·.name)).Nodup
  classes : ∀ p ∈ x.properties, p.nested.isSome → p.typeName ≠ "bool"
  unambiguous : Unambiguous (s.wrapped x)

section

variable {s : Schema} {x : Scope} {o : Object α} {d : Datum α} {p : Property}

lemma Distinct.eq_of_name (hx : Distinct s x) {q : Property} (hq : q ∈ x.properties)
    (hp : p ∈ x.properties) (h : q.name = p.name) : q = p :=
  List.inj_on_of_nodup_map hx.names hq hp h

/-- Single classes and other properties have different names. -/
lemma Distinct.name_ne (hx : Distinct s x) (hp : p ∈ x.properties) {q : Property}
    (hq : q ∈ x.properties) (h : isSingleClass q ≠ isSingleClass p) : q.name ≠ p.name :=
  fun hname => h (congrArg isSingleClass (hx.eq_of_name hq hp hname))

/-- The getter of a single class is called like its property. -/
lemma Distinct.getter_of_class (hx : Distinct s x) (hp : p ∈ x.properties)
    (hsingle : isSingleClass p = true) : MemberName.getter p.typeName p.name = p.name := by
  obtain ⟨_, c, hc⟩ := isSingleClass_iff.mp hsingle
  exact if_neg (hx.classes p hp (by simp [hc]))

lemma Views.wrapper_eq (h : Views s x o d) : o.wrapper = name (s.wrapped x) := by
  cases h; assumption

lemma Views.fits (h : Views s x o d) : FitsClass x.properties d := by
  cases h; assumption

lemma Views.field?_eq (h : Views s x o d) (hp : p ∈ x.properties)
    (hplain : isSingleClass p = false) : o.data.field? p.name = d.field? p.name := by
  obtain ⟨_, _, current, _, _⟩ := h
  exact current p hp hplain

lemma Views.showsField (hx : Distinct s x) (h : Views s x o d) (hp : p ∈ x.properties)
    (hsingle : isSingleClass p = true) {c : NestedClass} (hc : p.nested = some c) :
    ShowsField s x o d p c := by
  obtain ⟨_, shown, _, present, children⟩ := h
  obtain ⟨child, hchild⟩ := Option.isSome_iff_exists.mp (present p hp hsingle)
  obtain ⟨v, hv, _⟩ := shown.exists_field hx.names hp
  exact ⟨child, v, hchild, hv, children p hp hsingle c hc child v hchild hv⟩

lemma views_of_showsField (hwrapper : o.wrapper = name (s.wrapped x))
    (hshown : FitsClass x.properties d)
    (hcurrent : ∀ p ∈ x.properties, isSingleClass p = false →
      o.data.field? p.name = d.field? p.name)
    (hfields : ∀ p ∈ x.properties, isSingleClass p = true → ∀ c, p.nested = some c →
      ShowsField s x o d p c) : Views s x o d := by
  refine .intro hwrapper hshown hcurrent ?_ ?_
  · intro p hp hsingle
    obtain ⟨_, c, hc⟩ := isSingleClass_iff.mp hsingle
    obtain ⟨child, _, hchild, _⟩ := hfields p hp hsingle c hc
    exact Option.isSome_iff_exists.mpr ⟨child, hchild⟩
  · intro p hp hsingle c hc child v hchild hv
    obtain ⟨child', v', hchild', hv', hviews⟩ := hfields p hp hsingle c hc
    obtain rfl := Option.some.inj (hchild'.symm.trans hchild)
    obtain rfl := Option.some.inj (hv'.symm.trans hv)
    exact hviews

/-- A field that is no single class is replaced in the owned value and so in the shown one. -/
theorem Views.setField (hx : Distinct s x) (h : Views s x o d) (hp : p ∈ x.properties)
    (hplain : isSingleClass p = false) {v : Datum α} (hv : FitsProperty p v) :
    Views s x (o.setData (o.data.setField p.name v)) (d.setField p.name v) := by
  have hfields := fun q hq hsingle c hc => h.showsField hx (p := q) hq hsingle (c := c) hc
  obtain ⟨hwrapper, hshown, hcurrent, _, _⟩ := h
  refine views_of_showsField (by simpa using hwrapper) (hshown.setField hx.names hp hv) ?_ ?_
  · intro q hq hother
    rw [Object.data_setData, Datum.field?_setField, Datum.field?_setField, hcurrent q hq hother]
  · intro q hq hsingle c hc
    obtain ⟨child, w, hchild, hw, hviews⟩ := hfields q hq hsingle c hc
    have hne : q.name ≠ p.name := hx.name_ne hp hq (by simp [hsingle, hplain])
    refine ⟨child, w, by rwa [Object.child?_setData], ?_, hviews⟩
    rwa [Datum.field?_setField, if_neg hne]

/-- A field that is a single class is replaced in the child alone. -/
theorem Views.setChild (hx : Distinct s x) (h : Views s x o d) (hp : p ∈ x.properties)
    (hsingle : isSingleClass p = true) {c : NestedClass} (hc : p.nested = some c)
    {child : Object α} {v : Datum α} (hv : Views s (x.inner c) child v) :
    Views s x (o.setChild p.name child) (d.setField p.name v) := by
  have hfields := fun q hq hsingle c hc => h.showsField hx (p := q) hq hsingle (c := c) hc
  obtain ⟨hwrapper, hshown, hcurrent, _, _⟩ := h
  have hfits : FitsProperty p v := (fitsProperty_iff_of_class hsingle hc v).mpr hv.fits
  refine views_of_showsField (by simpa using hwrapper) (hshown.setField hx.names hp hfits) ?_ ?_
  · intro q hq hplain
    have hne : q.name ≠ p.name := hx.name_ne hp hq (by simp [hsingle, hplain])
    rw [Object.data_setChild, Datum.field?_setField, if_neg hne]
    exact hcurrent q hq hplain
  · intro q hq hsingle' c' hc'
    obtain ⟨child', v', hchild', hv', hviews⟩ := hfields q hq hsingle' c' hc'
    by_cases hname : q.name = p.name
    · obtain rfl := hx.eq_of_name hq hp hname
      obtain rfl := Option.some.inj (hc.symm.trans hc')
      refine ⟨child, v, ?_, ?_, hv⟩
      · rw [Object.child?_setChild, if_pos rfl, hchild', Option.map_some]
      · rw [Datum.field?_setField, if_pos rfl, hv', Option.map_some]
    · refine ⟨child', v', ?_, ?_, hviews⟩
      · rwa [Object.child?_setChild, if_neg hname]
      · rwa [Datum.field?_setField, if_neg hname]

end

end Wrapper

end BeanForge
