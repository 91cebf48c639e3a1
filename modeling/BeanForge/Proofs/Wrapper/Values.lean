import BeanForge.Proofs.Fallible
import BeanForge.Wrapper.Call
import Mathlib.Data.List.Nodup
/-!
# Fields of values

A value of a class has a value for each property, and is known by them. Replacing a field keeps it a
value of the class, and leaves the other fields as they are.
-/
namespace BeanForge.Wrapper

variable {α β : Type}

/-- Entries of a list are replaced under one key, and only there. -/
lemma lookup_replace (entries : List (String × β)) (key other : String) (v : β) :
    (entries.map fun (k, old) => if k = key then (k, v) else (k, old)).lookup other =
      if other = key then (entries.lookup other).map fun _ => v else entries.lookup other := by
  induction entries with
  | nil => simp
  | cons entry entries ih =>
    obtain ⟨k, old⟩ := entry
    by_cases hother : other = k
    · subst hother
      by_cases hkey : other = key <;> simp [hkey]
    · have hskip (w : β) (rest : List (String × β)) :
          ((k, w) :: rest).lookup other = rest.lookup other := by
        rw [List.lookup_cons, beq_false_of_ne hother]
      by_cases hkey : k = key
      · simp only [List.map_cons, if_pos hkey, hskip, ih]
      · simp only [List.map_cons, if_neg hkey, hskip, ih]

lemma Datum.field?_setField (d : Datum α) (property other : String) (v : Datum α) :
    (d.setField property v).field? other =
      if other = property then (d.field? other).map fun _ => v else d.field? other := by
  cases d with
  | plain a => simp [setField, field?, fields]
  | record fs => exact lookup_replace fs property other v

lemma isSingleClass_iff {p : Property} :
    isSingleClass p = true ↔ p.isList = false ∧ ∃ c, p.nested = some c := by
  rw [isSingleClass, Bool.and_eq_true, Bool.not_eq_true', Option.isSome_iff_exists, and_comm]

/-- A single class holds values of this class. -/
lemma fitsProperty_iff_of_class {p : Property} (hsingle : isSingleClass p = true) {c : NestedClass}
    (hc : p.nested = some c) (d : Datum α) : FitsProperty p d ↔ FitsClass c.properties d := by
  obtain ⟨_, _, _, isList, nested, _⟩ := p
  obtain ⟨name, qs⟩ := c
  obtain ⟨rfl, _⟩ := isSingleClass_iff.mp hsingle
  obtain rfl : nested = some ⟨name, qs⟩ := hc
  cases d with
  | plain a => exact ⟨False.elim, fun ⟨_, heq, _⟩ => by cases heq⟩
  | record fs =>
    change Fits qs fs ↔ _
    simp [FitsClass]

lemma fits_iff_forall₂ (ps : List Property) (fs : List (String × Datum α)) :
    Fits ps fs ↔ List.Forall₂ (fun p f => f.1 = p.name ∧ FitsProperty p f.2) ps fs := by
  induction ps generalizing fs with
  | nil => cases fs <;> simp [Fits]
  | cons p ps ih => cases fs <;> simp [Fits, ih, and_assoc]

lemma lookup_cons_of_nodup {p q : Property} {ps : List Property}
    (h : ((p :: ps).map (·.name)).Nodup) (hq : q ∈ ps) (v : β) (entries : List (String × β)) :
    ((p.name, v) :: entries).lookup q.name = entries.lookup q.name := by
  have hne : q.name ≠ p.name := by
    intro heq
    have hfresh : p.name ∉ ps.map (·.name) := (List.nodup_cons.mp h).1
    exact hfresh (heq ▸ List.mem_map_of_mem hq)
  rw [List.lookup_cons, beq_false_of_ne hne]

/-- A value of a class has a value for each property. -/
theorem FitsClass.exists_field {ps : List Property} {d : Datum α} (h : FitsClass ps d)
    (hnames : (ps.map (·.name)).Nodup) {p : Property} (hp : p ∈ ps) :
    ∃ v, d.field? p.name = some v ∧ FitsProperty p v := by
  obtain ⟨fs, rfl, hfits⟩ := h
  change ∃ v, fs.lookup p.name = some v ∧ FitsProperty p v
  rw [fits_iff_forall₂] at hfits
  induction hfits with
  | nil => simp at hp
  | @cons q f ps fs hf _ ih =>
    obtain ⟨name, v⟩ := f
    obtain ⟨rfl, hv⟩ := hf
    rcases List.mem_cons.mp hp with rfl | hp
    · exact ⟨v, List.lookup_cons_self, hv⟩
    · rw [lookup_cons_of_nodup hnames hp]
      exact ih (List.nodup_cons.mp hnames).2 hp

/-- A value of a class consists of the values of its properties, in order. -/
theorem FitsClass.fields {ps : List Property} {d : Datum α} (h : FitsClass ps d)
    (hnames : (ps.map (·.name)).Nodup) :
    ∃ vs, ps.mapM (fun p => d.field? p.name) = some vs ∧
      d = .record ((ps.map (·.name)).zip vs) := by
  obtain ⟨fs, rfl, hfits⟩ := h
  change ∃ vs, ps.mapM (fun p => fs.lookup p.name) = some vs ∧ _
  rw [fits_iff_forall₂] at hfits
  induction hfits with
  | nil => exact ⟨[], rfl, rfl⟩
  | @cons p f ps fs hf _ ih =>
    obtain ⟨name, v⟩ := f
    obtain ⟨rfl, _⟩ := hf
    obtain ⟨vs, hvs, hfs⟩ := ih (List.nodup_cons.mp hnames).2
    have hother : ∀ q ∈ ps, ((p.name, v) :: fs).lookup q.name = fs.lookup q.name :=
      fun q hq => lookup_cons_of_nodup hnames hq v fs
    refine ⟨v :: vs, ?_, ?_⟩
    · exact Fallible.mapM_cons_eq_some_iff.mpr
        ⟨v, vs, List.lookup_cons_self, (Fallible.mapM_congr hother).trans hvs, rfl⟩
    · rw [Datum.record.inj hfs]
      rfl

/-- Values of a class are the same if their fields are. -/
theorem FitsClass.ext {ps : List Property} {d e : Datum α} (hd : FitsClass ps d)
    (he : FitsClass ps e) (hnames : (ps.map (·.name)).Nodup)
    (h : ∀ p ∈ ps, d.field? p.name = e.field? p.name) : d = e := by
  obtain ⟨vs, hvs, hfs⟩ := hd.fields hnames
  obtain ⟨ws, hws, hgs⟩ := he.fields hnames
  rw [Fallible.mapM_congr h, hws] at hvs
  rw [hfs, hgs, Option.some.inj hvs]

/-- A value of a class stays one if a field is replaced by another value of its property. -/
theorem FitsClass.setField {ps : List Property} {d : Datum α} (h : FitsClass ps d)
    (hnames : (ps.map (·.name)).Nodup) {p : Property} (hp : p ∈ ps) {v : Datum α}
    (hv : FitsProperty p v) : FitsClass ps (d.setField p.name v) := by
  obtain ⟨fs, rfl, hfits⟩ := h
  refine ⟨_, rfl, ?_⟩
  rw [fits_iff_forall₂] at hfits ⊢
  refine List.forall₂_map_right_iff.mpr (((List.forall₂_and_left ps fs).mpr
    ⟨fun q hq => hq, hfits⟩).imp ?_)
  rintro q ⟨name, old⟩ ⟨hq, rfl, hold⟩
  by_cases hname : q.name = p.name
  · obtain rfl : q = p := List.inj_on_of_nodup_map hnames hq hp hname
    simpa using hv
  · simpa [hname] using hold

lemma FitsClass.setField_self {ps : List Property} {d : Datum α} (h : FitsClass ps d)
    (hnames : (ps.map (·.name)).Nodup) {p : Property} (hp : p ∈ ps) {v : Datum α}
    (hv : d.field? p.name = some v) : d.setField p.name v = d := by
  obtain ⟨w, hw, hfits⟩ := h.exists_field hnames hp
  obtain rfl := Option.some.inj (hw.symm.trans hv)
  refine (h.setField hnames hp hfits).ext h hnames fun q _ => ?_
  by_cases hname : q.name = p.name
  · rw [Datum.field?_setField, if_pos hname, hname, hv, Option.map_some]
  · rw [Datum.field?_setField, if_neg hname]

end BeanForge.Wrapper
