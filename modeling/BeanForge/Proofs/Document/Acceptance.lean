import BeanForge.Document.WellFormed
import BeanForge.Proofs.Fallible
import Mathlib.Data.List.Nodup
/-!
# Accepted documents

`Document.check` accepts exactly the well-formed documents, and what it makes of one is the
schema that the document stands for. The check of a scope carries the names and classes that the
earlier declarations have taken, so the statement about scopes is general in them: `Apart` says
that a declaration takes nothing twice, and `Taken.add` what is taken after it.
-/
namespace BeanForge

theorem Access.ofText?_eq_some_iff (spelling : String) (a : Access) :
    Access.ofText? spelling = some a ↔ spelling = a.text := by
  constructor
  · intro h
    unfold Access.ofText? at h
    split at h <;> cases h <;> rfl
  · rintro rfl
    exact Access.ofText?_text a

namespace JsonPath

/-- A path that starts with a slash has an empty first segment. -/
lemma empty_mem_segments_of_slash {path : String} (h : path.toList.head? = some '/') :
    "" ∈ segments path := by
  obtain ⟨cs, hcs⟩ := List.head?_eq_some_iff.mp h
  rw [segments, Text.split, hcs, Text.splitChars, if_pos rfl, List.map_cons]
  exact List.mem_cons_self

end JsonPath

/-- What is taken in a scope after one more declaration. -/
def Taken.add (taken : Taken) (d : Declaration) : Taken :=
  ⟨d.name.toList ++ taken.names,
    (if d.declaresClass then d.className.toList else []) ++ taken.classes⟩

namespace Declaration

open Fallible

theorem checkPath_eq_ok_iff (jsonPath : Option String) (type path : String) :
    checkPath jsonPath type = .ok path ↔
      jsonPath = some path ∧ GoodPath path ∧ (TypeName.conversion? type).isSome := by
  have hany : ∀ p, ((JsonPath.segments p).any (·.isEmpty)) = true ↔ "" ∈ JsonPath.segments p := by
    simp [List.any_eq_true]
  simp only [checkPath, error_bind, bind_eq_ok_iff, elim_error_eq_ok_iff, guard_eq_ok_iff,
    pure_eq_ok_iff, hany]
  constructor
  · rintro ⟨p, hp, _, hgood, hconv, rfl⟩
    exact ⟨hp, hgood, by simpa [Option.isSome_iff_ne_none] using hconv⟩
  · rintro ⟨hp, hgood, hconv⟩
    have hslash : path.toList.head? ≠ some '/' :=
      fun h => hgood (JsonPath.empty_mem_segments_of_slash h)
    exact ⟨path, hp, hslash, hgood, by simpa [Option.isSome_iff_ne_none] using hconv, rfl⟩

/-- What a complete declaration says besides its class. -/
def outlined (decodes : Bool) (d : Declaration) : Outline :=
  ⟨d.name.getD "", d.typeName.getD "", (d.access.bind Access.ofText?).getD .const,
    binding? decodes d.jsonPath d.jsonOptional⟩

theorem outline_eq_ok_iff (decodes : Bool) (takenNames : List String) (d : Declaration)
    (o : Outline) :
    outline decodes takenNames d = .ok o ↔
      d.Complete decodes ∧ (∀ n ∈ takenNames, d.name ≠ some n) ∧ o = d.outlined decodes := by
  simp only [outline, error_bind, bind_eq_ok_iff, elim_error_eq_ok_iff, guard_eq_ok_iff,
    Access.ofText?_eq_some_iff]
  constructor
  · rintro ⟨n, hn, hfresh, type, htype, spelling, haccess, a, rfl, h⟩
    have hapart : ∀ m ∈ takenNames, d.name ≠ some m := by
      rintro m hm heq
      exact hfresh (Option.some.inj (hn.symm.trans heq) ▸ hm)
    cases decodes with
    | false =>
      refine ⟨⟨by simp [hn], by simp [htype], ⟨a, haccess⟩, by simp⟩, hapart, ?_⟩
      simpa [outlined, binding?, hn, htype, haccess, pure_eq_ok_iff] using h
    | true =>
      simp only [if_true, bind_eq_ok_iff, pure_eq_ok_iff, checkPath_eq_ok_iff] at h
      obtain ⟨path, ⟨hpath, hgood, hconv⟩, rfl⟩ := h
      refine ⟨⟨by simp [hn], by simp [htype], ⟨a, haccess⟩, fun _ => ?_⟩, hapart, ?_⟩
      · exact ⟨⟨path, hpath, hgood⟩, type, htype, hconv⟩
      · simp [outlined, binding?, hn, htype, haccess, hpath]
  · rintro ⟨⟨hname, htype, ⟨a, haccess⟩, hdecodes⟩, hapart, rfl⟩
    obtain ⟨n, hn⟩ := Option.isSome_iff_exists.mp hname
    obtain ⟨type, htype⟩ := Option.isSome_iff_exists.mp htype
    refine ⟨n, hn, fun hm => hapart n hm hn, type, htype, a.text, haccess, a, rfl, ?_⟩
    cases decodes with
    | false => simp [outlined, binding?, hn, htype, haccess, pure_eq_ok_iff]
    | true =>
      obtain ⟨⟨path, hpath, hgood⟩, type', htype', hconv⟩ := hdecodes rfl
      obtain rfl : type = type' := Option.some.inj (htype.symm.trans htype')
      simp only [if_true, bind_eq_ok_iff, pure_eq_ok_iff, checkPath_eq_ok_iff]
      exact ⟨path, ⟨hpath, hgood, hconv⟩, by simp [outlined, binding?, hn, htype, haccess, hpath]⟩

/-- A declaration that takes no name and no class that is already taken. -/
def Apart (taken : Taken) (d : Declaration) : Prop :=
  (∀ n ∈ taken.names, d.name ≠ some n) ∧
    (d.declaresClass → ∀ c ∈ taken.classes, d.className ≠ some c)

lemma declaresClass_iff (d : Declaration) :
    d.declaresClass ↔ d.typeName = some classType := by
  simp [declaresClass]

lemma wellFormed_iff (decodes : Bool) (d : Declaration) :
    d.WellFormed decodes ↔ d.Complete decodes ∧
      (d.declaresClass → d.className.isSome ∧
        ∃ ds, d.properties = some ds ∧ WellFormedScope decodes ds) := by
  obtain ⟨name, typeName, access, isList, className, properties, jsonPath, jsonOptional⟩ := d
  rw [declaresClass_iff]
  cases properties with
  | none => simp [WellFormed]
  | some ds => simp [WellFormed, WellFormedScope, allWellFormed_iff]

lemma typed_of_class (decodes : Bool) {d : Declaration} {c : String} {ds : List Declaration}
    (h : d.declaresClass) (hc : d.className = some c) (hds : d.properties = some ds) :
    d.typed decodes =
      ⟨(d.outlined decodes).name, (d.outlined decodes).typeName, (d.outlined decodes).access,
        d.isList, some ⟨c, typedAll decodes ds⟩, (d.outlined decodes).binding⟩ := by
  obtain ⟨name, typeName, access, isList, className, properties, jsonPath, jsonOptional⟩ := d
  rw [declaresClass_iff] at h
  simp only at h hc hds
  subst h hc hds
  simp [typed, outlined]

lemma typed_of_plain (decodes : Bool) {d : Declaration} (h : ¬ d.declaresClass) :
    d.typed decodes =
      ⟨(d.outlined decodes).name, (d.outlined decodes).typeName, (d.outlined decodes).access,
        d.isList, none, (d.outlined decodes).binding⟩ := by
  obtain ⟨name, typeName, access, isList, className, properties, jsonPath, jsonOptional⟩ := d
  rw [declaresClass_iff] at h
  cases className <;> cases properties <;> simp_all [typed, outlined]

/-- No class is declared by leaving the type out. -/
lemma outlined_typeName_eq_iff (decodes : Bool) (d : Declaration) :
    (d.outlined decodes).typeName = classType ↔ d.declaresClass := by
  rw [declaresClass_iff, outlined]
  cases d.typeName <;> simp [classType]

lemma name_toList_of_complete {decodes : Bool} {d : Declaration} (h : d.Complete decodes) :
    d.name.toList = [(d.outlined decodes).name] := by
  obtain ⟨n, hn⟩ := Option.isSome_iff_exists.mp h.1
  simp [outlined, hn]

lemma check_of_error {decodes : Bool} {scope : String} {index : ℕ} {taken : Taken}
    {d : Declaration} {fault : Fault} (h : outline decodes taken.names d = .error fault) :
    d.check decodes scope index taken = .error ⟨location scope index d.name, fault⟩ := by
  obtain ⟨name, typeName, access, isList, className, properties, jsonPath, jsonOptional⟩ := d
  change outline decodes taken.names
    ⟨name, typeName, access, isList, none, none, jsonPath, jsonOptional⟩ = _ at h
  rw [check, h]

lemma check_of_plain {decodes : Bool} {scope : String} {index : ℕ} {taken : Taken}
    {d : Declaration} {o : Outline} (h : outline decodes taken.names d = .ok o)
    (hplain : o.typeName ≠ classType) :
    d.check decodes scope index taken =
      .ok (⟨o.name, o.typeName, o.access, d.isList, none, o.binding⟩,
        ⟨o.name :: taken.names, taken.classes⟩) := by
  obtain ⟨name, typeName, access, isList, className, properties, jsonPath, jsonOptional⟩ := d
  change outline decodes taken.names
    ⟨name, typeName, access, isList, none, none, jsonPath, jsonOptional⟩ = _ at h
  rw [check, h]
  exact if_neg hplain

lemma check_of_class {decodes : Bool} {scope : String} {index : ℕ} {taken : Taken}
    {d : Declaration} {o : Outline} (h : outline decodes taken.names d = .ok o)
    (hclass : o.typeName = classType) :
    d.check decodes scope index taken =
      match d.className, d.properties with
      | none, _ => .error ⟨location scope index d.name, .missingPropertyField "class_name"⟩
      | some _, none => .error ⟨location scope index d.name, .missingPropertyField "properties"⟩
      | some c, some ds =>
        if c ∈ taken.classes then .error ⟨location scope index d.name, .duplicateClass c⟩
        else (checkScope decodes (nestedScope scope c) 0 {} ds).map fun ps =>
          (⟨o.name, o.typeName, o.access, d.isList, some ⟨c, ps⟩, o.binding⟩,
            ⟨o.name :: taken.names, c :: taken.classes⟩) := by
  obtain ⟨name, typeName, access, isList, className, properties, jsonPath, jsonOptional⟩ := d
  change outline decodes taken.names
    ⟨name, typeName, access, isList, none, none, jsonPath, jsonOptional⟩ = _ at h
  rw [check, h]
  simp only [hclass, if_true]
  cases className <;> cases properties <;> try rfl
  rename_i c ds
  simp only
  split
  · rfl
  · cases checkScope decodes (nestedScope scope c) 0 {} ds <;> rfl

/-- What a successful check of a declaration has established, with the check of its class left
as it is. -/
lemma check_eq_ok_iff_checkScope (decodes : Bool) (scope : String) (index : ℕ)
    (taken taken' : Taken) (d : Declaration) (p : Property) :
    d.check decodes scope index taken = .ok (p, taken') ↔
      d.Complete decodes ∧ Apart taken d ∧ taken' = taken.add d ∧
        ((¬ d.declaresClass ∧ p = d.typed decodes) ∨
          (d.declaresClass ∧ ∃ c ds ps, d.className = some c ∧ d.properties = some ds ∧
            checkScope decodes (nestedScope scope c) 0 {} ds = .ok ps ∧
            p = ⟨(d.outlined decodes).name, (d.outlined decodes).typeName,
              (d.outlined decodes).access, d.isList, some ⟨c, ps⟩,
              (d.outlined decodes).binding⟩)) := by
  have hcheck := outline_eq_ok_iff decodes taken.names d
  cases ho : outline decodes taken.names d with
  | error fault =>
    have hnot : ¬ (d.Complete decodes ∧ Apart taken d) := by
      rintro ⟨hcomplete, hapart⟩
      have := (hcheck _).mpr ⟨hcomplete, hapart.1, rfl⟩
      rw [ho] at this
      contradiction
    rw [check_of_error ho]
    simp only [reduceCtorEq, false_iff]
    exact fun h => hnot ⟨h.1, h.2.1⟩
  | ok o =>
    obtain ⟨hcomplete, hnames, rfl⟩ := (hcheck o).mp ho
    by_cases hclass : d.declaresClass
    · rw [check_of_class ho ((outlined_typeName_eq_iff decodes d).mpr hclass)]
      cases hc : d.className with
      | none => simp [hclass]
      | some c =>
        cases hds : d.properties with
        | none => simp [hclass]
        | some ds =>
          have hadd : taken.add d =
              ⟨(d.outlined decodes).name :: taken.names, c :: taken.classes⟩ := by
            simp [Taken.add, hclass, hc, name_toList_of_complete hcomplete]
          have hapart : Apart taken d ↔ c ∉ taken.classes := by
            constructor
            · exact fun h hmem => h.2 hclass c hmem hc
            · rintro h
              refine ⟨hnames, fun _ c' hc' heq => h ?_⟩
              rwa [Option.some.inj (hc.symm.trans heq)]
          simp only [guard_eq_ok_iff, hapart, hadd, hclass, hcomplete, not_true, false_and,
            true_and, false_or]
          cases hcheck : checkScope decodes (nestedScope scope c) 0 {} ds with
          | error r => simp [Except.map, hcheck]
          | ok ps => simp [Except.map, hcheck, eq_comm, and_comm]
    · rw [check_of_plain ho (mt (outlined_typeName_eq_iff decodes d).mp hclass)]
      have hadd : taken.add d = ⟨(d.outlined decodes).name :: taken.names, taken.classes⟩ := by
        simp [Taken.add, hclass, name_toList_of_complete hcomplete]
      have hapart : Apart taken d := ⟨hnames, fun h => absurd h hclass⟩
      simp [hadd, hapart, hcomplete, hclass, typed_of_plain, eq_comm, and_comm]

/-- Two declarations of a scope that do not clash. -/
def Differ (d e : Declaration) : Prop :=
  d.name ≠ e.name ∧ (d.declaresClass → e.declaresClass → d.className ≠ e.className)

lemma distinct_iff_pairwise (ds : List Declaration) : Distinct ds ↔ ds.Pairwise Differ := by
  simp only [Distinct, List.Nodup, List.pairwise_map, List.pairwise_filter,
    ← List.pairwise_and_iff]
  rfl

/-- A declaration takes its name and its class for the rest of its scope, and nothing else. -/
lemma apart_add_iff {decodes : Bool} {taken : Taken} {d e : Declaration}
    (hd : d.WellFormed decodes) :
    Apart (taken.add d) e ↔ Apart taken e ∧ Differ d e := by
  obtain ⟨hcomplete, hclass⟩ := (wellFormed_iff decodes d).mp hd
  obtain ⟨n, hn⟩ := Option.isSome_iff_exists.mp hcomplete.1
  by_cases h : d.declaresClass
  · obtain ⟨c, hc⟩ := Option.isSome_iff_exists.mp (hclass h).1
    simp only [Apart, Taken.add, Differ, hn, hc, h, if_true, Option.toList_some, List.mem_append,
      List.mem_singleton]
    grind
  · simp only [Apart, Taken.add, Differ, hn, h, Option.toList_some, List.mem_append,
      List.mem_singleton]
    grind

/-- Induction over scopes: the first declaration brings the scope that it opens. -/
@[elab_as_elim]
theorem scope_induction {motive : List Declaration → Prop} (nil : motive [])
    (cons : ∀ d ds, (∀ es, d.properties = some es → motive es) → motive ds → motive (d :: ds))
    (ds : List Declaration) : motive ds := by
  refine AllWellFormed.induct (fun d => ∀ es, d.properties = some es → motive es) motive
    ?_ ?_ nil cons ds
  · intro _ _ _ _ _ es _ _ hes es' heq
    exact Option.some.inj heq ▸ hes
  · intro _ _ _ _ _ _ _ es heq
    cases heq

@[simp] lemma apart_nothing (d : Declaration) : Apart {} d := by
  simp [Apart]

/-- A declaration is accepted if it is well formed and takes nothing twice, provided that this is
so of the scope of its class. -/
lemma check_eq_ok_iff_of_scope {decodes : Bool} {d : Declaration}
    (hscope : ∀ es, d.properties = some es → ∀ scope ps,
      checkScope decodes scope 0 {} es = .ok ps ↔
        WellFormedScope decodes es ∧ ps = typedAll decodes es)
    (scope : String) (index : ℕ) (taken taken' : Taken) (p : Property) :
    d.check decodes scope index taken = .ok (p, taken') ↔
      d.WellFormed decodes ∧ Apart taken d ∧ p = d.typed decodes ∧ taken' = taken.add d := by
  rw [check_eq_ok_iff_checkScope, wellFormed_iff]
  by_cases hclass : d.declaresClass
  · constructor
    · rintro ⟨hcomplete, hapart, htaken, ⟨hplain, _⟩ | ⟨_, c, es, ps, hc, hes, hcheck, rfl⟩⟩
      · exact absurd hclass hplain
      · obtain ⟨hwf, rfl⟩ := (hscope es hes _ _).mp hcheck
        refine ⟨⟨hcomplete, fun _ => ⟨by simp [hc], es, hes, hwf⟩⟩, hapart, ?_, htaken⟩
        exact (typed_of_class decodes hclass hc hes).symm
    · rintro ⟨⟨hcomplete, hwf⟩, hapart, rfl, htaken⟩
      obtain ⟨hname, es, hes, hwf⟩ := hwf hclass
      obtain ⟨c, hc⟩ := Option.isSome_iff_exists.mp hname
      refine ⟨hcomplete, hapart, htaken, .inr ⟨hclass, c, es, typedAll decodes es, hc, hes, ?_, ?_⟩⟩
      · exact (hscope es hes _ _).mpr ⟨hwf, rfl⟩
      · exact typed_of_class decodes hclass hc hes
  · simp only [hclass, not_false_eq_true, true_and, Bool.false_eq_true, false_and, or_false,
      false_implies, and_true]
    grind

lemma checkScope_cons_eq_ok_iff (decodes : Bool) (scope : String) (index : ℕ) (taken : Taken)
    (d : Declaration) (ds : List Declaration) (ps : List Property) :
    checkScope decodes scope index taken (d :: ds) = .ok ps ↔
      ∃ p taken' rest, d.check decodes scope index taken = .ok (p, taken') ∧
        checkScope decodes scope (index + 1) taken' ds = .ok rest ∧ ps = p :: rest := by
  rw [checkScope]
  cases d.check decodes scope index taken with
  | error r => simp
  | ok found =>
    obtain ⟨p, taken'⟩ := found
    simp only [Except.ok.injEq, Prod.mk.injEq]
    cases h : checkScope decodes scope (index + 1) taken' ds with
    | error r => simp [h]
    | ok rest => simp [h, eq_comm]

/-- The declarations of a scope are accepted if each is well formed, no two clash, and none takes
what is taken already. -/
theorem checkScope_eq_ok_iff (decodes : Bool) (scope : String) (index : ℕ) (taken : Taken)
    (ds : List Declaration) (ps : List Property) :
    checkScope decodes scope index taken ds = .ok ps ↔
      WellFormedScope decodes ds ∧ (∀ d ∈ ds, Apart taken d) ∧ ps = typedAll decodes ds := by
  induction ds using scope_induction generalizing scope index taken ps with
  | nil => simp [checkScope, WellFormedScope, Distinct, typedAll, eq_comm]
  | cons d ds ihd ihds =>
    have hd := check_eq_ok_iff_of_scope
      (fun es hes scope ps => by simpa using ihd es hes scope 0 {} ps) scope index taken
    rw [checkScope_cons_eq_ok_iff]
    simp only [hd, ihds, WellFormedScope, distinct_iff_pairwise, List.pairwise_cons,
      List.forall_mem_cons, typedAll]
    constructor
    · rintro ⟨_, _, _, ⟨hwf, hapart, rfl, rfl⟩, ⟨⟨hpair, hwfs⟩, haparts, rfl⟩, rfl⟩
      have hboth := fun e he => (apart_add_iff hwf).mp (haparts e he)
      exact ⟨⟨⟨fun e he => (hboth e he).2, hpair⟩, hwf, hwfs⟩,
        ⟨hapart, fun e he => (hboth e he).1⟩, rfl⟩
    · rintro ⟨⟨⟨hdiffer, hpair⟩, hwf, hwfs⟩, ⟨hapart, haparts⟩, rfl⟩
      refine ⟨_, _, _, ⟨hwf, hapart, rfl, rfl⟩, ⟨⟨hpair, hwfs⟩, fun e he => ?_, rfl⟩, rfl⟩
      exact (apart_add_iff hwf).mpr ⟨haparts e he, hdiffer e he⟩

end Declaration

namespace Document

open Fallible

lemma checkUse_eq_ok_iff (profile : Profile) (d : Document) :
    d.checkUse profile = .ok () ↔
      (profile.decodes → d.source = some "json") ∧ (profile.wrappers → d.noQt = false) := by
  have hwrappers : ((profile.wrappers && d.noQt) = true) ↔
      ¬ (profile.wrappers → d.noQt = false) := by
    simp
  simp only [checkUse, error_bind, hwrappers]
  cases hdecodes : profile.decodes with
  | false => simp [guard_eq_ok_iff, pure_eq_ok_iff]
  | true =>
    simp only [if_true, bind_eq_ok_iff, elim_error_eq_ok_iff, guard_eq_ok_iff, pure_eq_ok_iff]
    grind

/-- What a document has to say for its declarations to be checked, and what becomes of them. -/
lemma check_eq_ok_iff_checkScope (target : Target) (d : Document) (s : Schema) :
    d.check target = .ok s ↔
      d.name = some s.name ∧ d.moduleName = some s.moduleName ∧
        d.checkUse target.profile = .ok () ∧
        ∃ ds, d.properties = some ds ∧
          Declaration.checkScope target.profile.decodes s.name 0 {} ds = .ok s.properties := by
  simp only [check, bind_eq_ok_iff, elim_error_eq_ok_iff, mapError_eq_ok_iff, pure_eq_ok_iff]
  constructor
  · rintro ⟨name, hname, moduleName, hmodule, ds, hds, _, huse, ps, hps, rfl⟩
    exact ⟨hname, hmodule, huse, ds, hds, hps⟩
  · rintro ⟨hname, hmodule, huse, ds, hds, hps⟩
    exact ⟨_, hname, _, hmodule, ds, hds, (), huse, _, hps, rfl⟩

/-- A document is accepted if and only if it is well formed for the target, and it then yields
the schema that it stands for. -/
theorem check_eq_ok_iff (target : Target) (d : Document) (s : Schema) :
    d.check target = .ok s ↔ d.WellFormed target ∧ s = d.typed target := by
  rw [check_eq_ok_iff_checkScope]
  simp only [checkUse_eq_ok_iff, Declaration.checkScope_eq_ok_iff, Declaration.apart_nothing,
    implies_true, true_and]
  constructor
  · rintro ⟨hname, hmodule, ⟨hsource, hqt⟩, ds, hds, hwf, hps⟩
    refine ⟨⟨by simp [hname], by simp [hmodule], hsource, hqt, ds, hds, hwf⟩, ?_⟩
    simp [typed, hname, hmodule, hds, ← hps]
  · rintro ⟨⟨hname, hmodule, hsource, hqt, ds, hds, hwf⟩, rfl⟩
    obtain ⟨name, hname⟩ := Option.isSome_iff_exists.mp hname
    obtain ⟨moduleName, hmodule⟩ := Option.isSome_iff_exists.mp hmodule
    exact ⟨by simp [typed, hname], by simp [typed, hmodule], ⟨hsource, hqt⟩, ds, hds, hwf,
      by simp [typed, hds]⟩

end Document

end BeanForge
