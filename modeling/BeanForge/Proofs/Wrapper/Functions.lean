import BeanForge.Proofs.Agreement.Wrapper
import BeanForge.Wrapper.Behaviour
import Mathlib.Data.List.Pairwise
/-!
# Member functions of wrappers

What each function of a wrapper does, as an equation without bodies. In a class whose names stand
for one thing each, a getter or a setter finds the property that it is made for, in the wrapper as
in the owned value.
-/
namespace BeanForge.Wrapper

variable {α β : Type}

lemma find?_eq_some_of_unique {P : β → Bool} {b : β} {bs : List β} (hb : b ∈ bs) (hP : P b)
    (hunique : ∀ b' ∈ bs, P b' → b' = b) : bs.find? P = some b := by
  cases hfind : bs.find? P with
  | none => exact absurd hP (List.find?_eq_none.mp hfind b hb)
  | some b' => rw [hunique b' (List.mem_of_find?_eq_some hfind) (List.find?_some hfind)]

lemma eq_of_nodup_filterMap {f : β → Option String} {bs : List β} (h : (bs.filterMap f).Nodup)
    {b b' : β} (hb : b ∈ bs) (hb' : b' ∈ bs) {key : String} (hf : f b = some key)
    (hf' : f b' = some key) : b' = b := by
  by_contra hne
  have hsymm : Std.Symm fun b b' => ∀ k, f b = some k → ∀ k', f b' = some k' → k ≠ k' :=
    ⟨fun b b' h k hk k' hk' => (h k' hk' k hk).symm⟩
  exact (List.pairwise_filterMap.mp h).forall hb' hb hne key hf' key hf rfl

section Lookups

/-- Among bodies, accessors and nothing else are found under the name of a getter. -/
lemma getterBody?_eq (c : ClassModel) (getter : String) :
    getterBody? c getter = (c.members.find? (·.getter == getter)).map fun m =>
      if isChild m then .showChild m.name else .showValue m.getter := by
  rw [getterBody?, bodies, List.findSome?_append, List.findSome?_append]
  simp only [List.findSome?_cons, List.findSome?_nil, Option.none_or, Option.or_none]
  induction c.members with
  | nil => rfl
  | cons m ms ih =>
    rw [List.flatMap_cons, List.findSome?_append, ih, List.find?_cons]
    by_cases hm : m.getter = getter
    · simp [accessorBodies, hm]
    · rw [beq_false_of_ne hm]
      cases hs : setter? m <;> simp [accessorBodies, hm, hs]

lemma setterBody?_eq (c : ClassModel) (setter : String) :
    setterBody? c setter = (c.members.find? (setter? · == some setter)).map fun m =>
      (m.name, .change m.getter setter m.name m.stored) := by
  rw [setterBody?, bodies, List.findSome?_append, List.findSome?_append]
  simp only [List.findSome?_cons, List.findSome?_nil, Option.none_or, Option.or_none]
  induction c.members with
  | nil => rfl
  | cons m ms ih =>
    rw [List.flatMap_cons, List.findSome?_append, ih, List.find?_cons]
    by_cases hm : setter? m = some setter
    · simp [accessorBodies, hm, parameter]
    · rw [beq_false_of_ne hm]
      cases hs : setter? m with
      | none => simp [accessorBodies, hs]
      | some s =>
        have hne : s ≠ setter := fun heq => hm (heq ▸ hs)
        simp [accessorBodies, hs, hne]

lemma lookup_accessorBodies {f : Method} (hgetter : ∀ result name, f ≠ .getter result name)
    (hsetter : ∀ name p, f ≠ .setter name p) (ms : List Member) :
    (ms.flatMap accessorBodies).lookup f = none := by
  rw [List.lookup_eq_none_iff]
  rintro ⟨g, body⟩ hg
  obtain ⟨m, _, hg⟩ := List.mem_flatMap.mp hg
  simp only [accessorBodies, List.mem_cons, Prod.mk.injEq, Option.mem_toList,
    Option.map_eq_some_iff] at hg
  rcases hg with ⟨rfl, _⟩ | ⟨s, _, rfl, _⟩
  · simpa using hgetter _ _
  · simpa using hsetter _ _

lemma lookup_adopt (c : ClassModel) :
    (bodies c).lookup .adopt = some (.takeOver (children c)) := by
  rfl

lemma lookup_data (c : ClassModel) :
    (bodies c).lookup .data = some (.collect (valueParts c)) := by
  have haccessors := lookup_accessorBodies (f := .data) (by simp) (by simp) c.members
  rw [bodies, List.lookup_append, List.lookup_append, haccessors]
  rfl

lemma lookup_update (c : ClassModel) :
    (bodies c).lookup .update = some (.replace (children c) (watched c)) := by
  have haccessors := lookup_accessorBodies (f := .update) (by simp) (by simp) c.members
  rw [bodies, List.lookup_append, List.lookup_append, haccessors]
  rfl

end Lookups

section Accessors

variable {c : ClassModel} {m : Member}

lemma Unambiguous.find_getter (h : Unambiguous c) (hm : m ∈ c.members) :
    c.members.find? (·.getter == m.getter) = some m :=
  find?_eq_some_of_unique hm (beq_self_eq_true _) fun _ hm' heq =>
    List.inj_on_of_nodup_map h.getters hm' hm (eq_of_beq heq)

/-- A getter of the owned value returns the field of its property. -/
lemma Unambiguous.get? (h : Unambiguous c) (hm : m ∈ c.members) (d : Datum α) :
    d.get? c m.getter = d.field? m.name := by
  rw [Datum.get?, h.find_getter hm]
  rfl

/-- A setter of the owned value replaces the field of its property. -/
lemma Unambiguous.set? (h : Unambiguous c) (hm : m ∈ c.members) {setter : String}
    (hs : m.setter = some setter) (d v : Datum α) :
    d.set? c setter v = some (d.setField m.name v) := by
  have hfind : c.members.find? (·.setter == some setter) = some m :=
    find?_eq_some_of_unique hm (by simp [hs]) fun _ hm' heq =>
      eq_of_nodup_filterMap h.setters hm hm' hs (eq_of_beq heq)
  rw [Datum.set?, hfind]
  rfl

/-- The getter of a child returns this child. -/
lemma Unambiguous.shownChild? (h : Unambiguous c) (hm : m ∈ c.members) (hchild : isChild m) :
    shownChild? c m.getter = some m.name := by
  rw [Wrapper.shownChild?, getterBody?_eq, h.find_getter hm]
  simp [hchild]

/-- Other getters show a field of the owned value. -/
lemma Unambiguous.runGetter (h : Unambiguous c) (hm : m ∈ c.members) (hchild : isChild m = false)
    (o : Object α) : runGetter c m.getter o = o.data.field? m.name := by
  rw [Wrapper.runGetter, getterBody?_eq, h.find_getter hm]
  simp [hchild, h.get? hm]

/-- A setter does nothing if the value is there already; else it replaces the field and emits the
signal of its property. -/
lemma Unambiguous.runSetter [DecidableEq α] (h : Unambiguous c) (hm : m ∈ c.members)
    {setter : String} (hs : setter? m = some setter) (hover : handsOver m.stored m.name)
    {o : Object α} {old : Datum α} (hold : o.data.field? m.name = some old) (v : Datum α) :
    runSetter c setter v o =
      if old = v then some (o, [])
      else some (o.setData (o.data.setField m.name v), [⟨[], m.name⟩]) := by
  obtain ⟨_, hown⟩ := setter?_eq_some_iff.mp hs
  have hfind : c.members.find? (setter? · == some setter) = some m := by
    refine find?_eq_some_of_unique hm (by simp [hs]) fun m' hm' heq => ?_
    obtain ⟨_, hown'⟩ := setter?_eq_some_iff.mp (eq_of_beq heq)
    exact eq_of_nodup_filterMap h.setters hm hm' hown hown'
  rw [Wrapper.runSetter, setterBody?_eq, hfind]
  simp only [Option.map_some, hover, if_true, h.get? hm, hold, h.set? hm hown, Option.bind_eq_bind,
    Option.bind_some]
  split <;> rfl

end Accessors

end BeanForge.Wrapper
