import BeanForge.Proofs.Agreement.Renderings
/-!
# Signatures of member functions

A class must not declare two member functions with the same name, parameter types and constness.
Most functions belong to properties: they are accessors, whose signatures meet only those of other
accessors and a few of the functions that every class has. So a class has different signatures if
its accessors do, with one exception for value classes and another for wrappers. What the macro for
copying and moving declares is not counted, since it is defined elsewhere.
-/
namespace BeanForge

/-- What tells the member functions of a class apart. -/
structure Signature where
  name : String
  parameters : List String
  isConst : Bool
  deriving DecidableEq, Repr

/-- The getter of a property and its setter, if it has one, with the type of its parameter. -/
structure Accessors where
  getter : String
  setter : Option String
  type : String

namespace Accessors

def signatures (a : Accessors) : List Signature :=
  ⟨a.getter, [], true⟩ :: (a.setter.map fun s => ⟨s, [a.type], false⟩).toList

/-- Accessors without a signature in common. -/
def Apart (a b : Accessors) : Prop :=
  a.getter ≠ b.getter ∧ ∀ s, a.setter = some s → b.setter = some s → a.type ≠ b.type

/-- Accessors whose signatures are not among those of other member functions. -/
def Free (a : Accessors) (others : List Signature) : Prop :=
  ⟨a.getter, [], true⟩ ∉ others ∧ ∀ s, a.setter = some s → ⟨s, [a.type], false⟩ ∉ others

lemma mem_signatures_iff {a : Accessors} {f : Signature} :
    f ∈ a.signatures ↔
      f = ⟨a.getter, [], true⟩ ∨ ∃ s, a.setter = some s ∧ f = ⟨s, [a.type], false⟩ := by
  simp only [signatures, List.mem_cons, Option.mem_toList, Option.map_eq_some_iff,
    @eq_comm _ _ f]

lemma nodup_signatures (a : Accessors) : a.signatures.Nodup := by
  cases h : a.setter <;> simp [signatures, h]

lemma disjoint_iff_free (a : Accessors) (others : List Signature) :
    (∀ f ∈ others, ∀ g ∈ a.signatures, f ≠ g) ↔ a.Free others := by
  constructor
  · intro h
    refine ⟨fun hgetter => ?_, fun s hs hsetter => ?_⟩
    · exact h _ hgetter _ (mem_signatures_iff.mpr (.inl rfl)) rfl
    · exact h _ hsetter _ (mem_signatures_iff.mpr (.inr ⟨s, hs, rfl⟩)) rfl
  · rintro ⟨hgetter, hsetter⟩ f hf g hg rfl
    rcases mem_signatures_iff.mp hg with rfl | ⟨s, hs, rfl⟩
    · exact hgetter hf
    · exact hsetter s hs hf

lemma free_signatures_iff (a b : Accessors) : b.Free a.signatures ↔ a.Apart b := by
  simp only [Free, Apart, mem_signatures_iff, Signature.mk.injEq]
  constructor
  · rintro ⟨hgetter, hsetter⟩
    refine ⟨fun heq => hgetter (.inl ?_), fun s ha hb htype => hsetter s hb (.inr ⟨s, ha, ?_⟩)⟩
    · exact ⟨heq.symm, trivial, trivial⟩
    · exact ⟨rfl, by rw [htype], trivial⟩
  · rintro ⟨hgetter, hsetter⟩
    refine ⟨?_, fun s hb => ?_⟩
    · rintro (⟨heq, _⟩ | ⟨_, _, _, _, hconst⟩)
      · exact hgetter heq.symm
      · cases hconst
    · rintro (⟨_, htypes, _⟩ | ⟨_, ha, rfl, htypes, _⟩)
      · cases htypes
      · exact hsetter s ha hb (List.cons.inj htypes).1.symm

/-- Accessors have different signatures if any two of them do. -/
lemma nodup_flatMap_signatures_iff (as : List Accessors) :
    (as.flatMap signatures).Nodup ↔ as.Pairwise Apart := by
  rw [List.Nodup, List.pairwise_flatMap]
  simp only [disjoint_iff_free, free_signatures_iff, and_iff_right_iff_imp]
  exact fun _ a _ => a.nodup_signatures

/-- Accessors stand beside other member functions if they have different signatures and none of
the others. -/
theorem nodup_append_signatures_iff {others : List Signature} (hothers : others.Nodup)
    (as : List Accessors) :
    (others ++ as.flatMap signatures).Nodup ↔
      as.Pairwise Apart ∧ ∀ a ∈ as, a.Free others := by
  have hdisjoint : (∀ f ∈ others, ∀ g ∈ as.flatMap signatures, f ≠ g) ↔
      ∀ a ∈ as, a.Free others := by
    simp only [← disjoint_iff_free, List.mem_flatMap]
    exact ⟨fun h a ha f hf g hg => h f hf g ⟨a, ha, hg⟩,
      fun h f hf g ⟨a, ha, hg⟩ => h a ha f hf g hg⟩
  rw [List.nodup_append, nodup_flatMap_signatures_iff, hdisjoint, and_iff_right hothers]

end Accessors

namespace ValueClass

/-- The signature of a member function of a class. -/
def Method.signature (className : String) : Method → Signature
  | .construct ps => ⟨className, ps.map (·.type), false⟩
  | .equal => ⟨"operator==", ["const " ++ className ++ " &"], true⟩
  | .notEqual => ⟨"operator!=", ["const " ++ className ++ " &"], true⟩
  | .getter _ name => ⟨name, [], true⟩
  | .setter name p => ⟨name, [p.type], false⟩

/-- The signatures of the member functions that a class declares: the constructor for a default
value, and those without a body. -/
def signatures (c : ClassModel) : List Signature :=
  ⟨c.name, [], false⟩ :: (declared c).map (Method.signature c.name)

/-- The signatures of constructors and comparisons. -/
def fixedSignatures (c : ClassModel) : List Signature :=
  ⟨c.name, [], false⟩ ::
    (constructors c ++ [Method.equal, Method.notEqual]).map (Method.signature c.name)

/-- The accessors of a property in a value class. -/
def accessorsOf (m : Member) : Accessors :=
  ⟨m.getter, m.setter, m.parameterType⟩

lemma signatures_accessors (className : String) (m : Member) :
    (accessors Member.memberType m).map (Method.signature className) =
      (accessorsOf m).signatures := by
  cases h : m.setter <;> simp [accessors, Accessors.signatures, accessorsOf, h, Method.signature,
    parameter]

lemma signatures_eq (c : ClassModel) :
    signatures c =
      fixedSignatures c ++ (c.members.map accessorsOf).flatMap Accessors.signatures := by
  rw [signatures, declared, functions, ← List.append_assoc, List.map_append, List.map_flatMap,
    List.flatMap_map]
  simp only [signatures_accessors]
  rfl

lemma mem_fixedSignatures_iff {c : ClassModel} {f : Signature} :
    f ∈ fixedSignatures c ↔ f = ⟨c.name, [], false⟩ ∨
      (c.members ≠ [] ∧ f = ⟨c.name, c.members.map (·.parameterType), false⟩) ∨
      f = Method.signature c.name .equal ∨ f = Method.signature c.name .notEqual := by
  cases hmembers : c.members <;>
    simp [fixedSignatures, constructors, hmembers, Method.signature, parameter, Function.comp_def]

lemma nodup_fixedSignatures (c : ClassModel) : (fixedSignatures c).Nodup := by
  cases hmembers : c.members <;>
    simp [fixedSignatures, constructors, hmembers, Method.signature, parameter]

/-- A function with one parameter, and this of the type of a property, has the signature of a
constructor if the property is the only one of the class. -/
lemma setter_mem_fixedSignatures_iff {c : ClassModel} {m : Member} (hm : m ∈ c.members)
    (s : String) :
    ⟨s, [m.parameterType], false⟩ ∈ fixedSignatures c ↔ s = c.name ∧ c.members = [m] := by
  have hsole : [m.parameterType] = c.members.map (·.parameterType) ↔ c.members = [m] := by
    constructor
    · intro h
      obtain ⟨m', hm', _⟩ := List.map_eq_singleton_iff.mp h.symm
      rw [hm', List.mem_singleton] at hm
      rw [hm', hm]
    · intro h
      rw [h]
      rfl
  have hne : c.members ≠ [] := List.ne_nil_of_mem hm
  simp [mem_fixedSignatures_iff, Method.signature, hsole, hne]

/-- Accessors stand beside constructors and comparisons, but for the setter of the only property
of a class that is called like it. -/
lemma free_fixedSignatures_iff {c : ClassModel} {m : Member} (hm : m ∈ c.members) :
    (accessorsOf m).Free (fixedSignatures c) ↔ (c.members = [m] → m.setter ≠ some c.name) := by
  have hgetter : ⟨m.getter, [], true⟩ ∉ fixedSignatures c := by
    simp [mem_fixedSignatures_iff, Method.signature]
  constructor
  · rintro ⟨_, hfree⟩ hsole hsetter
    exact hfree _ hsetter ((setter_mem_fixedSignatures_iff hm _).mpr ⟨rfl, hsole⟩)
  · refine fun h => ⟨hgetter, fun s hs hmem => ?_⟩
    obtain ⟨rfl, hsole⟩ := (setter_mem_fixedSignatures_iff hm _).mp hmem
    exact h hsole hs

/-- A class has different signatures if its accessors do, unless it takes one value only and is
called like the setter of this value. -/
theorem nodup_signatures_iff (c : ClassModel) :
    (signatures c).Nodup ↔ (c.members.map accessorsOf).Pairwise Accessors.Apart ∧
      ∀ m, c.members = [m] → m.setter ≠ some c.name := by
  rw [signatures_eq, Accessors.nodup_append_signatures_iff (nodup_fixedSignatures c)]
  simp only [List.forall_mem_map]
  refine and_congr_right fun _ => ⟨fun h m hc => ?_, fun h m hm => ?_⟩
  · have hm : m ∈ c.members := hc ▸ List.mem_cons_self
    exact (free_fixedSignatures_iff hm).mp (h m hm) hc
  · exact (free_fixedSignatures_iff hm).mpr (h m)

end ValueClass

namespace Wrapper

/-- The signature of a member function of a wrapper. -/
def Method.signature (wrapper bean : String) : Method → Signature
  | .construct => ⟨wrapper, ["QObject *"], false⟩
  | .adopt => ⟨wrapper, [bean ++ " &&", "QObject *"], false⟩
  | .getter _ name => ⟨name, [], true⟩
  | .setter name p => ⟨name, [p.type], false⟩
  | .data => ⟨"data", [], true⟩
  | .update => ⟨"update", [bean ++ " &&"], false⟩

/-- The signatures of the member functions that a wrapper declares, signals included. -/
def signatures (c : ClassModel) : List Signature :=
  (declared c).map (Method.signature (name c) (beanType c)) ++
    (signals c).map fun p => ⟨signal p, [], false⟩

/-- The signatures that every wrapper has, and those of signals. -/
def fixedSignatures (c : ClassModel) : List Signature :=
  [Method.construct, Method.adopt, Method.data, Method.update].map
    (Method.signature (name c) (beanType c)) ++ (signals c).map fun p => ⟨signal p, [], false⟩

/-- The accessors of a property in a wrapper. -/
def accessorsOf (m : Member) : Accessors :=
  ⟨m.getter, setter? m, (parameter m).type⟩

lemma signatures_accessors (wrapper bean : String) (m : Member) :
    (accessors m).map (Method.signature wrapper bean) = (accessorsOf m).signatures := by
  cases h : setter? m <;> simp [accessors, Accessors.signatures, accessorsOf, h, Method.signature]

lemma signatures_perm (c : ClassModel) :
    (signatures c).Perm
      (fixedSignatures c ++ (c.members.map accessorsOf).flatMap Accessors.signatures) := by
  have haccessors : (c.members.flatMap accessors).map (Method.signature (name c) (beanType c)) =
      (c.members.map accessorsOf).flatMap Accessors.signatures := by
    rw [List.map_flatMap, List.flatMap_map]
    simp only [signatures_accessors]
  rw [signatures, declared, List.map_append, List.map_append, haccessors, List.append_assoc,
    List.append_assoc]
  exact List.perm_append_comm.append_left _

lemma mem_fixedSignatures_iff {c : ClassModel} {f : Signature} :
    f ∈ fixedSignatures c ↔
      f = ⟨name c, ["QObject *"], false⟩ ∨
      f = ⟨name c, [beanType c ++ " &&", "QObject *"], false⟩ ∨
      f = ⟨"data", [], true⟩ ∨ f = ⟨"update", [beanType c ++ " &&"], false⟩ ∨
      ∃ p ∈ signals c, f = ⟨signal p, [], false⟩ := by
  simp [fixedSignatures, Method.signature, eq_comm]

lemma signal_injective : Function.Injective signal := fun _ _ h => (String.append_left_inj _).mp h

lemma nodup_fixedSignatures {c : ClassModel} (hnames : (c.members.map (·.name)).Nodup) :
    (fixedSignatures c).Nodup := by
  have hbean : beanType c ++ " &&" ≠ "QObject *" := by
    intro h
    simpa [beanType] using congrArg (·.toList.head?) h
  have hsignals : ((signals c).map fun p => (⟨signal p, [], false⟩ : Signature)).Nodup := by
    have hsub : (signals c).Sublist (c.members.map (·.name)) := List.filter_sublist.map _
    exact (hnames.sublist hsub).map fun p q h => signal_injective (Signature.mk.inj h).1
  rw [fixedSignatures, List.nodup_append]
  refine ⟨?_, hsignals, ?_⟩
  · simp [Method.signature, hbean.symm]
  · simp [Method.signature]

/-- Parameters of setters end in a blank or as references do, so that none is a pointer. -/
lemma parameter_type_ne (m : Member) : (parameter m).type ≠ "QObject *" := by
  intro h
  have hlast := congrArg (·.toList.getLast?) h
  unfold parameter at hlast
  by_cases hsimple : m.kind = .simple <;> simp [hsimple] at hlast

/-- Accessors stand beside the other functions of a wrapper, but for a getter called `data`. -/
lemma free_fixedSignatures_iff {c : ClassModel} {m : Member}
    (hupdate : m.setter ≠ some "update") :
    (accessorsOf m).Free (fixedSignatures c) ↔ m.getter ≠ "data" := by
  have hgetter : ⟨m.getter, [], true⟩ ∈ fixedSignatures c ↔ m.getter = "data" := by
    simp [mem_fixedSignatures_iff]
  have hsetter : ∀ s, setter? m = some s →
      ⟨s, [(parameter m).type], false⟩ ∉ fixedSignatures c := by
    intro s hs hmem
    have hown : m.setter = some s := by
      unfold setter? at hs
      split at hs
      · cases hs
      · exact hs
    -- Constructors take a pointer and signals take nothing.
    have hown' : s = "update" ∧ (parameter m).type = beanType c ++ " &&" := by
      simpa [mem_fixedSignatures_iff, parameter_type_ne] using hmem
    exact hupdate (hown'.1 ▸ hown)
  simp only [Accessors.Free, accessorsOf, hgetter]
  exact and_iff_left hsetter

/-- A wrapper has different signatures if its accessors do and no getter is called `data`. -/
theorem nodup_signatures_iff {c : ClassModel} (hnames : (c.members.map (·.name)).Nodup)
    (hupdate : ∀ m ∈ c.members, m.setter ≠ some "update") :
    (signatures c).Nodup ↔ (c.members.map accessorsOf).Pairwise Accessors.Apart ∧
      ∀ m ∈ c.members, m.getter ≠ "data" := by
  rw [(signatures_perm c).nodup_iff,
    Accessors.nodup_append_signatures_iff (nodup_fixedSignatures hnames), List.forall_mem_map]
  exact and_congr_right fun _ => forall₂_congr fun m hm => free_fixedSignatures_iff (hupdate m hm)

end Wrapper

end BeanForge
