import BeanForge.Proofs.Signatures
/-!
# Signatures in accepted documents

The properties of a scope have different names, but member functions are named after them in ways
that lose this: the first letter is put in upper case behind `is` and `set`, and other properties
can be called like the result, or like the function that every wrapper has for its value.
`signatures_nodup_iff` says which properties of an accepted document clash, and that properties
with plain names do not.
-/
namespace BeanForge

namespace Text

/-- A name that starts with a small letter, but not with `is`, and is not `data`. -/
def Plain (name : String) : Prop :=
  name.toList.head?.any Char.isLower ∧ ¬ "is".toList <+: name.toList ∧ name ≠ "data"

instance (name : String) : Decidable (Plain name) :=
  inferInstanceAs (Decidable (_ ∧ _ ∧ _))

lemma shifted_small {n : ℕ} (hlow : 97 ≤ n) (hhigh : n < 123) :
    (shifted n (-32)).toNat + 32 = n := by
  have hall : ∀ n < 123, 97 ≤ n → (shifted n (-32)).toNat + 32 = n := by decide
  exact hall n hhigh hlow

lemma upperCase_of_isLower {c : Char} (h : c.isLower) :
    ∃ u, upperCase c = [u] ∧ u.toNat + 32 = c.toNat := by
  have hval : (decide (97 ≤ c.val) && decide (c.val ≤ 122)) = true := h
  have hbounds : 97 ≤ c.toNat ∧ c.toNat ≤ 122 := by
    simpa [UInt32.le_iff_toNat_le] using hval
  refine ⟨shifted c.toNat (-32), ?_, shifted_small hbounds.1 (by omega)⟩
  rw [upperCase, upperRuns, List.find?_cons_of_pos]
  simp [hbounds, Nat.mod_one]

/-- Names that start with small letters can be told from their capitalized forms. -/
lemma upperFirst_injective_of_isLower {a b : String} (ha : a.toList.head?.any Char.isLower)
    (hb : b.toList.head?.any Char.isLower) (h : upperFirst a = upperFirst b) : a = b := by
  cases hla : a.toList with
  | nil => simp [hla] at ha
  | cons c rest =>
    cases hlb : b.toList with
    | nil => simp [hlb] at hb
    | cons d rest' =>
      obtain ⟨u, hu, hcu⟩ := upperCase_of_isLower (c := c) (by simpa [hla] using ha)
      obtain ⟨v, hv, hdv⟩ := upperCase_of_isLower (c := d) (by simpa [hlb] using hb)
      have hlists : u :: rest = v :: rest' := by
        simpa [upperFirst, hla, hlb, hu, hv] using congrArg String.toList h
      obtain ⟨rfl, rfl⟩ := List.cons.inj hlists
      have hcd : c = d := Char.toNat_inj.mp (hcu.symm.trans hdv)
      exact String.toList_injective (by rw [hla, hlb, hcd])

end Text

namespace Property

/-- Properties whose getters have the same name, though their own names are different: two flags
that differ in the case of their first letter only, or a flag and a property called like its
getter. -/
def GettersClash (p q : Property) : Prop :=
  (p.typeName = "bool" ∧ q.typeName = "bool" ∧ Text.upperFirst p.name = Text.upperFirst q.name) ∨
  (p.typeName = "bool" ∧ q.typeName ≠ "bool" ∧ q.name = "is" ++ Text.upperFirst p.name) ∨
  (p.typeName ≠ "bool" ∧ q.typeName = "bool" ∧ p.name = "is" ++ Text.upperFirst q.name)

/-- Properties whose setters have the same name and take the same type: they differ in the case of
their first letter only. -/
def SettersClash (written : Property → Bool) (typeOf : Property → String) (p q : Property) : Prop :=
  written p ∧ written q ∧ Text.upperFirst p.name = Text.upperFirst q.name ∧ typeOf p = typeOf q

def isWritten (p : Property) : Bool :=
  p.access = .readWrite

/-- Whether a property has a setter in its wrapper, where single classes have none. -/
def isWrittenInWrapper (p : Property) : Bool :=
  p.isWritten && (p.isList || !p.isClass)

lemma getter_eq_iff {p q : Property} (hne : p.name ≠ q.name) :
    MemberName.getter p.typeName p.name = MemberName.getter q.typeName q.name ↔
      p.GettersClash q := by
  unfold MemberName.getter GettersClash
  by_cases hp : p.typeName = "bool" <;> by_cases hq : q.typeName = "bool" <;>
    simp [hp, hq, hne, eq_comm]

/-- A getter is called `data` if the property is, and is no flag. -/
lemma getter_ne_data_iff (p : Property) :
    MemberName.getter p.typeName p.name ≠ "data" ↔ (p.typeName ≠ "bool" → p.name ≠ "data") := by
  have hflag : "is" ++ Text.upperFirst p.name ≠ "data" := by
    intro h
    have hhead := congrArg (·.toList.head?) h
    simp at hhead
  by_cases hbool : p.typeName = "bool" <;> simp [MemberName.getter, hbool, hflag]

lemma not_gettersClash_of_plain {p q : Property} (hne : p.name ≠ q.name) (hp : Text.Plain p.name)
    (hq : Text.Plain q.name) : ¬ p.GettersClash q := by
  rintro (⟨_, _, hupper⟩ | ⟨_, _, hname⟩ | ⟨_, _, hname⟩)
  · exact hne (Text.upperFirst_injective_of_isLower hp.1 hq.1 hupper)
  · exact hq.2.1 (by simp [hname])
  · exact hp.2.1 (by simp [hname])

lemma not_settersClash_of_plain {written : Property → Bool} {typeOf : Property → String}
    {p q : Property} (hne : p.name ≠ q.name) (hp : Text.Plain p.name) (hq : Text.Plain q.name) :
    ¬ SettersClash written typeOf p q := by
  rintro ⟨_, _, hupper, _⟩
  exact hne (Text.upperFirst_injective_of_isLower hp.1 hq.1 hupper)

/-- Accessors that are named after their properties, with parameters that show their types. -/
structure NamesAccessors (written : Property → Bool) (typeOf : Property → String)
    (accessorsOf : Property → Accessors) : Prop where
  getter : ∀ p, (accessorsOf p).getter = MemberName.getter p.typeName p.name
  setter : ∀ p, (accessorsOf p).setter =
    if written p then some (MemberName.setter p.name) else none
  type : ∀ p q, written p → written q →
    ((accessorsOf p).type = (accessorsOf q).type ↔ typeOf p = typeOf q)

/-- Accessors have a signature in common if the getters or the setters of the properties clash. -/
lemma NamesAccessors.apart_iff {written : Property → Bool} {typeOf : Property → String}
    {accessorsOf : Property → Accessors} (h : NamesAccessors written typeOf accessorsOf)
    {p q : Property} (hne : p.name ≠ q.name) :
    (accessorsOf p).Apart (accessorsOf q) ↔
      ¬ p.GettersClash q ∧ ¬ SettersClash written typeOf p q := by
  have hsetters : (∀ s, (accessorsOf p).setter = some s → (accessorsOf q).setter = some s →
      (accessorsOf p).type ≠ (accessorsOf q).type) ↔ ¬ SettersClash written typeOf p q := by
    have htype := h.type p q
    rw [h.setter, h.setter, SettersClash]
    by_cases hp : written p <;> by_cases hq : written q <;>
      simp [hp, hq, MemberName.setter, htype, eq_comm]
  rw [Accessors.Apart, h.getter, h.getter, ne_eq, getter_eq_iff hne, hsetters]

end Property

namespace TypeName

/-- Types can be told from what stands before a parameter. -/
lemma parameter_injective : Function.Injective parameter := by
  intro t u h
  unfold parameter at h
  by_cases ht : isSimple t <;> by_cases hu : isSimple u <;> simp only [ht, hu] at h
  · exact (String.append_left_inj _).mp h
  · have hlast := congrArg (·.toList.getLast?) h
    simp at hlast
  · have hlast := congrArg (·.toList.getLast?) h
    simp at hlast
  · exact (String.append_left_inj _).mp h

lemma isSimple_listOf (container element : String) :
    isSimple (listOf container element) = false := by
  have hne : ∀ t : String, t.toList.getLast? ≠ some '>' → listOf container element ≠ t := by
    rintro _ hlast rfl
    refine hlast ?_
    rw [listOf, String.toList_append]
    exact List.getLast?_concat
  simp [isSimple, hne "int" (by decide), hne "double" (by decide), hne "bool" (by decide)]

end TypeName

namespace Scope

/-- A scope without properties whose accessors clash. -/
def AccessorsApart (written : Property → Bool) (typeOf : Property → String) (x : Scope) : Prop :=
  x.properties.Pairwise fun p q => ¬ p.GettersClash q ∧ ¬ Property.SettersClash written typeOf p q

/-- The stored type of a property as written inside of the class of a scope. -/
def insideType (x : Scope) (p : Property) : String :=
  (p.member Target.bean.profile x.names).memberType

/-- The stored type of a property as written outside of the class of a scope. -/
def outsideType (x : Scope) (p : Property) : String :=
  (p.member Target.qtbean.profile x.names).nestedMemberType

/-- A scope whose value class has no two member functions with the same signature: no accessors
clash, and the class is not called like the setter of its only property. -/
def ValueApart (x : Scope) : Prop :=
  x.AccessorsApart Property.isWritten x.insideType ∧
    ∀ p, x.properties = [p] → p.isWritten → x.names.getLastD "" ≠ MemberName.setter p.name

/-- A scope whose wrapper has no two member functions with the same signature: no accessors clash,
and no getter is that of the value. -/
def WrapperApart (x : Scope) : Prop :=
  x.AccessorsApart Property.isWrittenInWrapper x.outsideType ∧
    ∀ p ∈ x.properties, p.typeName ≠ "bool" → p.name ≠ "data"

/-- No two accessors have a signature in common if no two properties clash. -/
lemma pairwise_accessors_iff {written : Property → Bool} {typeOf : Property → String}
    {accessorsOf : Property → Accessors} (h : Property.NamesAccessors written typeOf accessorsOf)
    {x : Scope} (hnames : (x.properties.map (·.name)).Nodup) :
    (x.properties.map accessorsOf).Pairwise Accessors.Apart ↔ x.AccessorsApart written typeOf := by
  have hne := List.pairwise_map.mp hnames
  rw [List.pairwise_map, AccessorsApart]
  constructor <;> intro hall
  · exact (hne.and hall).imp fun hpair => (h.apart_iff hpair.1).mp hpair.2
  · exact (hne.and hall).imp fun hpair => (h.apart_iff hpair.1).mpr hpair.2

/-- A scope with plain names, whose class is not called like a setter. -/
def Plain (x : Scope) : Prop :=
  (∀ p ∈ x.properties, Text.Plain p.name) ∧ ¬ "set".toList <+: (x.names.getLastD "").toList

instance (x : Scope) : Decidable x.Plain :=
  inferInstanceAs (Decidable (_ ∧ _))

lemma Plain.accessorsApart {x : Scope} (h : x.Plain) (hnames : (x.properties.map (·.name)).Nodup)
    (written : Property → Bool) (typeOf : Property → String) : x.AccessorsApart written typeOf := by
  refine (List.pairwise_map.mp hnames).imp_of_mem fun {p q} hp hq hne => ?_
  have hplain := h.1 p hp
  have hplain' := h.1 q hq
  exact ⟨Property.not_gettersClash_of_plain hne hplain hplain',
    Property.not_settersClash_of_plain hne hplain hplain'⟩

lemma Plain.valueApart {x : Scope} (h : x.Plain) (hnames : (x.properties.map (·.name)).Nodup) :
    x.ValueApart := by
  refine ⟨h.accessorsApart hnames _ _, fun p _ _ hclass => h.2 ?_⟩
  rw [hclass, MemberName.setter, String.toList_append]
  exact List.prefix_append ..

lemma Plain.wrapperApart {x : Scope} (h : x.Plain) (hnames : (x.properties.map (·.name)).Nodup) :
    x.WrapperApart :=
  ⟨h.accessorsApart hnames _ _, fun p hp _ => (h.1 p hp).2.2⟩

end Scope

namespace Property

lemma setter_member (profile : Profile) (names : List String) (p : Property) :
    (p.member profile names).setter =
      if p.isWritten then some (MemberName.setter p.name) else none := by
  simp [member, isWritten]

lemma namesAccessors_valueClass (x : Scope) :
    NamesAccessors isWritten x.insideType fun p =>
      ValueClass.accessorsOf (p.member Target.bean.profile x.names) :=
  ⟨fun _ => rfl, setter_member Target.bean.profile x.names,
    fun _ _ _ _ => TypeName.parameter_injective.eq_iff⟩

lemma setter?_member (names : List String) (p : Property) :
    Wrapper.setter? (p.member Target.qtbean.profile names) =
      if p.isWrittenInWrapper then some (MemberName.setter p.name) else none := by
  have hchild := Wrapper.isChild_member_iff names p
  rw [Wrapper.setter?, setter_member, isWrittenInWrapper, isClass]
  by_cases h : Wrapper.isChild (p.member Target.qtbean.profile names)
  · simp [h, hchild.mp h]
  · rw [if_neg h]
    rw [hchild] at h
    cases hlist : p.isList <;> cases hclass : p.nested.isSome <;> simp_all

/-- A property with a setter in its wrapper is simple there if its type is. -/
lemma kind_member_eq_simple_iff {p : Property} (names : List String)
    (h : p.isWrittenInWrapper) :
    (p.member Target.qtbean.profile names).kind = .simple ↔
      TypeName.isSimple (p.member Target.qtbean.profile names).nestedMemberType := by
  cases hlist : p.isList with
  | true => simp [member, hlist, TypeName.isSimple_listOf]
  | false =>
    have hclass : p.nested = none := by
      simp only [isWrittenInWrapper, hlist, isClass] at h
      simpa using (Bool.and_eq_true_iff.mp h).2
    by_cases hsimple : TypeName.isSimple p.typeName <;>
      simp [member, hlist, className?, hclass, hsimple]

lemma parameter_type_member {p : Property} (names : List String) (h : p.isWrittenInWrapper) :
    (Wrapper.parameter (p.member Target.qtbean.profile names)).type =
      TypeName.parameter (p.member Target.qtbean.profile names).nestedMemberType := by
  have hkind := kind_member_eq_simple_iff names h
  unfold Wrapper.parameter TypeName.parameter
  by_cases hsimple : TypeName.isSimple
    (p.member Target.qtbean.profile names).nestedMemberType <;> simp [hkind, hsimple]

lemma namesAccessors_wrapper (x : Scope) :
    NamesAccessors isWrittenInWrapper x.outsideType fun p =>
      Wrapper.accessorsOf (p.member Target.qtbean.profile x.names) := by
  refine ⟨fun _ => rfl, setter?_member x.names, fun p q hp hq => ?_⟩
  simp only [Wrapper.accessorsOf, parameter_type_member x.names hp,
    parameter_type_member x.names hq]
  exact TypeName.parameter_injective.eq_iff

lemma setter_member_ne_update (profile : Profile) (names : List String) (p : Property) :
    (p.member profile names).setter ≠ some "update" := by
  rw [setter_member]
  split
  · intro h
    have hhead := congrArg (·.toList.head?) (Option.some.inj h)
    simp [MemberName.setter] at hhead
  · simp

end Property

namespace Schema

/-- The value class of a scope has different signatures if nothing in the scope clashes. -/
theorem nodup_valueClass_signatures_iff (s : Schema) {x : Scope}
    (hnames : (x.properties.map (·.name)).Nodup) :
    (ValueClass.signatures (s.classAt Target.bean.profile x)).Nodup ↔ x.ValueApart := by
  have hmembers : (s.classAt Target.bean.profile x).members =
      x.properties.map (Property.member Target.bean.profile x.names) := rfl
  have hname : (s.classAt Target.bean.profile x).name = x.names.getLastD "" := rfl
  rw [ValueClass.nodup_signatures_iff, hmembers, hname, List.map_map]
  refine and_congr ?_ ⟨fun h p hp hwritten hclass => ?_, fun h m hm hsetter => ?_⟩
  · exact Scope.pairwise_accessors_iff (Property.namesAccessors_valueClass x) hnames
  · refine h _ (by rw [hp, List.map_singleton]) ?_
    rw [Property.setter_member, if_pos hwritten, hclass]
  · obtain ⟨p, hp, rfl⟩ := List.map_eq_singleton_iff.mp hm
    obtain ⟨hwritten, hclass⟩ : p.isWritten ∧ MemberName.setter p.name = x.names.getLastD "" := by
      rw [Property.setter_member] at hsetter
      simpa using hsetter
    exact h p hp hwritten hclass.symm

/-- The wrapper of a scope has different signatures if nothing in the scope clashes. -/
theorem nodup_wrapper_signatures_iff (s : Schema) {x : Scope}
    (hnames : (x.properties.map (·.name)).Nodup) :
    (Wrapper.signatures (s.classAt Target.qtbean.profile x)).Nodup ↔ x.WrapperApart := by
  have hmembers : (s.classAt Target.qtbean.profile x).members =
      x.properties.map (Property.member Target.qtbean.profile x.names) := rfl
  have hmemberNames : ((s.classAt Target.qtbean.profile x).members.map (·.name)).Nodup := by
    rw [hmembers, List.map_map]
    exact hnames
  have hupdate : ∀ m ∈ (s.classAt Target.qtbean.profile x).members,
      m.setter ≠ some "update" :=
    List.forall_mem_map.mpr fun p _ => p.setter_member_ne_update _ _
  rw [Wrapper.nodup_signatures_iff hmemberNames hupdate, hmembers, List.map_map,
    List.forall_mem_map]
  refine and_congr ?_ (forall₂_congr fun p _ => p.getter_ne_data_iff)
  exact Scope.pairwise_accessors_iff (Property.namesAccessors_wrapper x) hnames

end Schema

namespace Document

/-- The classes of an accepted document, and its wrappers, have no two member functions with the
same signature exactly if no properties of their scopes clash, and so if names are plain. -/
theorem signatures_nodup_iff (d : Document) :
    (∀ s, d.check .bean = .ok s →
      List.Forall₂ (fun x c => (ValueClass.signatures c).Nodup ↔ x.ValueApart)
        s.scopes (s.model .bean).root.postorder ∧
      ((∀ x ∈ s.scopes, x.Plain) →
        ∀ c ∈ (s.model .bean).root.postorder, (ValueClass.signatures c).Nodup)) ∧
    (∀ s, d.check .qtbean = .ok s →
      List.Forall₂ (fun x w => (Wrapper.signatures w).Nodup ↔ x.WrapperApart)
        s.scopes (s.model .qtbean).root.postorder ∧
      ((∀ x ∈ s.scopes, x.Plain) →
        ∀ w ∈ (s.model .qtbean).root.postorder, (Wrapper.signatures w).Nodup)) := by
  constructor <;> intro s hs <;>
    rw [s.postorder_model, List.forall₂_map_right_iff, List.forall₂_same, List.forall_mem_map]
  · have hiff : ∀ x ∈ s.scopes, (ValueClass.signatures (s.classAt Target.bean.profile x)).Nodup ↔
        x.ValueApart := fun x hx => s.nodup_valueClass_signatures_iff (checked_scopes hs x hx).names
    refine ⟨hiff, fun hplain x hx => (hiff x hx).mpr ?_⟩
    exact (hplain x hx).valueApart (checked_scopes hs x hx).names
  · have hiff : ∀ x ∈ s.scopes, (Wrapper.signatures (s.classAt Target.qtbean.profile x)).Nodup ↔
        x.WrapperApart := fun x hx => s.nodup_wrapper_signatures_iff (checked_scopes hs x hx).names
    refine ⟨hiff, fun hplain x hx => (hiff x hx).mpr ?_⟩
    exact (hplain x hx).wrapperApart (checked_scopes hs x hx).names

/-- The names of a trip are plain. -/
theorem signatures_nodup_trip :
    (∀ c ∈ ((tripDocument.typed .bean).model .bean).root.postorder,
      (ValueClass.signatures c).Nodup) ∧
    (∀ w ∈ ((tripDocument.typed .qtbean).model .qtbean).root.postorder,
      (Wrapper.signatures w).Nodup) :=
  ⟨((signatures_nodup_iff tripDocument).1 _ (by rfl)).2 (by decide),
    ((signatures_nodup_iff tripDocument).2 _ (by rfl)).2 (by decide)⟩

/-- A document with two getters and two setters that clash, and a getter that clashes with the
function for the value of a wrapper. -/
def gateDocument : Document where
  name := some "Gate"
  moduleName := some "m"
  properties := some [
    { name := some "open", typeName := some "bool", access := some "r" },
    { name := some "isOpen", typeName := some "int", access := some "r" },
    { name := some "level", typeName := some "int", access := some "rw" },
    { name := some "Level", typeName := some "int", access := some "rw" },
    { name := some "data", typeName := some "QString", access := some "c" }]

/-- This document is accepted, though the value class declares a getter and a setter twice, and the
wrapper also a function for its value. -/
theorem signatures_gateDocument :
    ∃ s s', gateDocument.check .bean = .ok s ∧ gateDocument.check .qtbean = .ok s' ∧
      (ValueClass.signatures (s.model .bean).root).count ⟨"isOpen", [], true⟩ = 2 ∧
      (ValueClass.signatures (s.model .bean).root).count ⟨"setLevel", ["int "], false⟩ = 2 ∧
      (Wrapper.signatures (s'.model .qtbean).root).count ⟨"data", [], true⟩ = 2 :=
  ⟨_, _, rfl, rfl, rfl, rfl, rfl⟩

end Document

end BeanForge
