import BeanForge.Proofs.Document.Signatures
import BeanForge.Proofs.Rendering
import BeanForge.Proofs.Wrapper.Names
import BeanForge.Proofs.Wrapper.Updating
/-!
# Wrappers are faithful

As children are defined before their parents, all wrappers of a schema do what they have to. Every
call then takes a view of a value to a view of the value that the call leaves, at any depth and
whatever was called before, so that a wrapper stays faithful to its value.
-/
namespace BeanForge

namespace Wrapper

section

variable {α : Type} [DecidableEq α] {s : Schema} {x : Scope} {known : Behaviours α} {p : Property}

/-- A parameter that is stored is handed over, whether it is copied or moved. -/
lemma handsOver_stored (type parameter : String) :
    handsOver (TypeName.stored type parameter) parameter := by
  unfold handsOver TypeName.stored
  split <;> simp

/-- Calling a setter takes a view of a value to a view of the value with the field replaced. -/
theorem runSetter_wrapped (hx : Distinct s x) {o : Object α} {d : Datum α} (h : Views s x o d)
    (hp : p ∈ x.properties) (haccess : p.access = .readWrite) (hplain : isSingleClass p = false)
    {v : Datum α} (hv : FitsProperty p v) :
    ∃ o' emitted, runSetter (s.wrapped x) (MemberName.setter p.name) v o = some (o', emitted) ∧
      Views s x o' (d.setField p.name v) ∧
      (Call.set [] p.name v).Announces x.properties d emitted := by
  have hmem := mem_wrapped s hp
  have hs : setter? (p.member Target.qtbean.profile x.names) = some (MemberName.setter p.name) :=
    setter?_eq_some_iff.mpr ⟨(isChild_eq x.names p).trans hplain, if_pos haccess⟩
  have hover : handsOver (p.member Target.qtbean.profile x.names).stored p.name :=
    handsOver_stored _ p.name
  obtain ⟨old, hold, _⟩ := h.fits.exists_field hx.names hp
  have hrun := hx.unambiguous.runSetter hmem hs hover ((h.field?_eq hp hplain).trans hold) v
  have hviews := h.setField hx hp hplain hv
  by_cases hsame : old = v
  · subst hsame
    rw [if_pos rfl] at hrun
    refine ⟨o, [], hrun, ?_, fun _ => rfl, fun hne => absurd hold hne⟩
    rwa [h.fits.setField_self hx.names hp hold]
  · rw [if_neg hsame] at hrun
    refine ⟨_, _, hrun, hviews, fun heq => ?_, fun _ => rfl⟩
    exact absurd (Option.some.inj (hold.symm.trans heq)) hsame

/-- A wrapper class that is defined after those of its children does what it should. -/
theorem keeps_behaviour (hx : Distinct s x) (hknown : KnowsInner s known x) :
    Keeps s x (behaviour known (s.wrapped x)) where
  adopt _ hd := runAdopt_wrapped hx hknown hd
  data _ _ h := runData_wrapped hx hknown h
  update _ _ _ h hafter := runUpdate_wrapped hx hknown h hafter
  set _ _ h _ hp haccess hplain _ hv := runSetter_wrapped hx h hp haccess hplain hv
  shows o d h p hp hplain := by
    have hchild := (isChild_eq x.names p).trans hplain
    exact (hx.unambiguous.runGetter (mem_wrapped s hp) hchild o).trans (h.field?_eq hp hplain)
  leads p hp hsingle := by
    have hchild := (isChild_eq x.names p).trans hsingle
    have hgetter : (p.member Target.qtbean.profile x.names).getter = p.name :=
      hx.getter_of_class hp hsingle
    have hlead := hx.unambiguous.shownChild? (mem_wrapped s hp) hchild
    rwa [hgetter] at hlead

/-- The wrappers of a schema all do what they should, if they have different names and no name in
their classes stands for two things. -/
theorem knows_behaviours (s : Schema) (hdistinct : ∀ x ∈ s.scopes, Distinct s x)
    (hnames : (names (s.model .qtbean)).Nodup) :
    ∀ x ∈ s.scopes, Knows s (behaviours (s.model .qtbean).root : Behaviours α) x := by
  have hkeys : (s.scopes.map fun x => name (s.wrapped x)).Nodup := by
    rw [names, s.postorder_model, List.map_map] at hnames
    exact hnames
  have hmade : List.Forall₂ (fun x c => c = s.wrapped x) s.scopes (s.scopes.map s.wrapped) :=
    List.forall₂_map_right_iff.mpr (List.forall₂_same.mpr fun _ _ => rfl)
  rw [behaviours, s.postorder_model]
  refine s.childrenFirst_scopes.forall_foldl hkeys define (Knows s) ?_ ?_ [] hmade
  · rintro known x hx _ rfl hchildren
    have hkeeps := keeps_behaviour (hdistinct x hx) hchildren
    refine ⟨_, ?_, hkeeps⟩
    rw [define, if_pos (hdistinct x hx).unambiguous]
    exact List.lookup_cons_self
  · rintro known x hx _ rfl y _ hne ⟨b, hb, hkeeps⟩
    refine ⟨b, ?_, hkeeps⟩
    rw [define, if_pos (hdistinct x hx).unambiguous, List.lookup_cons, beq_false_of_ne hne]
    exact hb

end

section

variable {α : Type} {s : Schema} {known : Behaviours α}

/-- The whole value of a wrapper is the one that it shows. -/
theorem Views.value? {x : Scope} {o : Object α} {d : Datum α} (h : Views s x o d)
    (hknows : Knows s known x) : o.value? known = some d := by
  obtain ⟨b, hb, hkeeps⟩ := hknows
  simp only [Object.value?, h.wrapper_eq, hb, Option.bind_eq_bind, Option.bind_some,
    hkeeps.data o d h]

variable (hknows : ∀ x ∈ s.scopes, Knows s known x) (hdistinct : ∀ x ∈ s.scopes, Distinct s x)
include hknows hdistinct

/-- Every getter at the end of a path shows the field of its property. -/
theorem Views.show? {ps qs : List Property} {path : List String} (hleads : Leads ps path qs)
    {x : Scope} (hx : x ∈ s.scopes) (hps : x.properties = ps) {o : Object α} {d : Datum α}
    (h : Views s x o d) {p : Property} (hp : p ∈ qs) (hplain : isSingleClass p = false) :
    ∃ v, (d.at? path).bind (·.field? p.name) = some v ∧
      o.show? known (MemberName.getter p.typeName p.name) path = some v := by
  induction hleads generalizing x o d with
  | here ps =>
    subst hps
    obtain ⟨b, hb, hkeeps⟩ := hknows x hx
    obtain ⟨v, hv, _⟩ := h.fits.exists_field (hdistinct x hx).names hp
    refine ⟨v, hv, ?_⟩
    simp only [Object.show?, h.wrapper_eq, hb, Option.bind_eq_bind, Option.bind_some,
      hkeeps.shows o d h p hp hplain, hv]
  | @inside ps qs path q c hq hsingle hc _ ih =>
    subst hps
    obtain ⟨b, hb, hkeeps⟩ := hknows x hx
    obtain ⟨child, inner, hchild, hinner, hviews⟩ := h.showsField (hdistinct x hx) hq hsingle hc
    have hscope : x.inner c ∈ s.scopes := List.mem_append_left _ (s.inner_mem_nestedScopes hx hq hc)
    obtain ⟨v, hv, hshow⟩ := ih hscope rfl hviews hp
    refine ⟨v, ?_, ?_⟩
    · rwa [Datum.at?, hinner]
    · simp only [Object.show?, h.wrapper_eq, hb, Option.bind_eq_bind, Option.bind_some,
        hkeeps.leads q hq hsingle, hchild, hshow]

/-- A setter at the end of a path replaces the field of its property in the whole value. -/
theorem Views.set? {ps qs : List Property} {path : List String} (hleads : Leads ps path qs)
    {x : Scope} (hx : x ∈ s.scopes) (hps : x.properties = ps) {o : Object α} {d : Datum α}
    (h : Views s x o d) {p : Property} (hp : p ∈ qs) (haccess : p.access = .readWrite)
    (hplain : isSingleClass p = false) {v : Datum α} (hv : FitsProperty p v) :
    ∃ o' emitted, o.set? known (MemberName.setter p.name) v path = some (o', emitted) ∧
      Views s x o' (Datum.setAt p.name v path d) ∧
      (Call.set path p.name v).Announces x.properties d emitted := by
  induction hleads generalizing x o d with
  | here ps =>
    subst hps
    obtain ⟨b, hb, hkeeps⟩ := hknows x hx
    obtain ⟨o', emitted, hset, hviews, hannounces⟩ := hkeeps.set o d h p hp haccess hplain v hv
    refine ⟨o', emitted, ?_, hviews, hannounces⟩
    simp only [Object.set?, h.wrapper_eq, hb, Option.bind_eq_bind, Option.bind_some, hset]
  | @inside ps qs path q c hq hsingle hc _ ih =>
    subst hps
    obtain ⟨b, hb, hkeeps⟩ := hknows x hx
    obtain ⟨child, inner, hchild, hinner, hviews⟩ := h.showsField (hdistinct x hx) hq hsingle hc
    have hscope : x.inner c ∈ s.scopes := List.mem_append_left _ (s.inner_mem_nestedScopes hx hq hc)
    obtain ⟨child', emitted, hset, hviews', hsame, hchanged⟩ := ih hscope rfl hviews hp
    have hat : (d.at? (q.name :: path)).bind (·.field? p.name) =
        (inner.at? path).bind (·.field? p.name) := by
      rw [Datum.at?, hinner, Option.bind_some]
    refine ⟨o.setChild q.name child', emitted.map (Emission.below q.name), ?_, ?_, ?_, ?_⟩
    · simp only [Object.set?, h.wrapper_eq, hb, Option.bind_eq_bind, Option.bind_some,
        hkeeps.leads q hq hsingle, hchild, hset, Option.pure_def]
    · rw [Datum.setAt, hinner]
      exact h.setChild (hdistinct x hx) hq hsingle hc hviews'
    · intro hv
      rw [hsame (hat.symm.trans hv), List.map_nil]
    · intro hv
      rw [hchanged (hat ▸ hv)]
      rfl

/-- A call takes a view of a value to a view of the value that it leaves, and emits what is due. -/
theorem Views.run? {x : Scope} (hx : x ∈ s.scopes) {o : Object α} {d : Datum α}
    (h : Views s x o d) {call : Call α} (hcall : call.Possible x.properties) :
    ∃ o' emitted, call.run? known o = some (o', emitted) ∧ Views s x o' (call.result d) ∧
      call.Announces x.properties d emitted := by
  cases hcall with
  | update hfits =>
    obtain ⟨b, hb, hkeeps⟩ := hknows x hx
    obtain ⟨o', emitted, hupdate, hviews, hannounces⟩ := hkeeps.update o d _ h hfits
    refine ⟨o', emitted, ?_, hviews, hannounces⟩
    simp only [Call.run?, Object.update?, h.wrapper_eq, hb, Option.bind_eq_bind, Option.bind_some,
      hupdate]
  | set hleads hp haccess hplain hv =>
    exact h.set? hknows hdistinct hleads hx rfl hp haccess hplain hv

/-- The same for several calls in a row. -/
theorem Views.runAll? {x : Scope} (hx : x ∈ s.scopes) {o : Object α} {d : Datum α}
    (h : Views s x o d) {calls : List (Call α)}
    (hcalls : ∀ call ∈ calls, call.Possible x.properties) :
    ∃ o', o.runAll? known calls = some o' ∧
      Views s x o' (calls.foldl (fun d call => call.result d) d) := by
  induction calls generalizing o d with
  | nil => exact ⟨o, rfl, h⟩
  | cons call calls ih =>
    obtain ⟨hcall, hcalls⟩ := List.forall_mem_cons.mp hcalls
    obtain ⟨next, emitted, hrun, hviews, _⟩ := h.run? hknows hdistinct hx hcall
    obtain ⟨o', hruns, hviews'⟩ := ih hviews hcalls
    refine ⟨o', ?_, hviews'⟩
    rw [Object.runAll?, List.foldlM_cons, hrun]
    exact hruns

theorem Views.faithful {x : Scope} (hx : x ∈ s.scopes) {o : Object α} {d : Datum α}
    (h : Views s x o d) : Faithful known x.properties o d where
  value := h.value? (hknows x hx)
  shown _ _ hleads _ hp hplain := h.show? hknows hdistinct hleads hx rfl hp hplain

end

/-- A class with different getters and different setters, and with no property that is called like
what every wrapper has for its value. -/
structure ToldApart (c : ClassModel) : Prop where
  getters : (c.members.map (·.getter)).Nodup
  setters : (c.members.filterMap (·.setter)).Nodup
  names : ∀ m ∈ c.members, m.name ≠ "data" ∧ m.name ≠ "m_data"

instance (c : ClassModel) : Decidable (ToldApart c) :=
  decidable_of_iff ((c.members.map (·.getter)).Nodup ∧ (c.members.filterMap (·.setter)).Nodup ∧
      ∀ m ∈ c.members, m.name ≠ "data" ∧ m.name ≠ "m_data")
    ⟨fun ⟨hg, hs, hn⟩ => ⟨hg, hs, hn⟩, fun ⟨hg, hs, hn⟩ => ⟨hg, hs, hn⟩⟩

lemma ToldApart.unambiguous {s : Schema} {x : Scope} (h : ToldApart (s.wrapped x)) :
    Unambiguous (s.wrapped x) where
  getters := h.getters
  setters := h.setters
  data m hm := by
    have hname := (h.names m hm).1
    obtain ⟨p, _, rfl⟩ := List.mem_map.mp hm
    exact p.getter_ne_data_iff.mpr fun _ => hname
  children m hm _ := (h.names m hm).1
  parameters m hm _ := (h.names m hm).2

end Wrapper

namespace Document

open Wrapper

lemma distinct_of_check {doc : Document} {s : Schema} (h : doc.check .qtbean = .ok s)
    (hclasses : ∀ c ∈ (s.model .qtbean).root.postorder, ToldApart c) :
    ∀ x ∈ s.scopes, Distinct s x := by
  intro x hx
  have hmem : s.wrapped x ∈ (s.model .qtbean).root.postorder := by
    rw [s.postorder_model]
    exact List.mem_map_of_mem hx
  refine ⟨(checked_scopes h x hx).names, fun p hp hclass => ?_, (hclasses _ hmem).unambiguous⟩
  rw [typeName_of_class h x hx p hp hclass]
  decide

/-- Wrappers of an accepted document are faithful views of their values, if no name in a class or
among the wrappers stands for two things. The wrapper that is constructed from a value shows it, and
after any calls that are possible, of its own functions or those of wrappers inside it, it shows the
value that they leave. Whatever was called before, each possible call succeeds and emits the signals
that are due, and no others. -/
theorem wrappers_faithful {α : Type} [DecidableEq α] {doc : Document} {s : Schema}
    (h : doc.check .qtbean = .ok s)
    (hclasses : ∀ c ∈ (s.model .qtbean).root.postorder, ToldApart c)
    (hnames : (Wrapper.names (s.model .qtbean)).Nodup)
    {start : Datum α} (hstart : FitsClass s.properties start)
    {calls : List (Call α)} (hcalls : ∀ call ∈ calls, call.Possible s.properties) :
    let known : Behaviours α := behaviours (s.model .qtbean).root
    let left := calls.foldl (fun d call => call.result d) start
    Wrapper.Written (s.model .qtbean) ∧ ∃ constructed o,
      Object.adopt? known (Wrapper.name (s.model .qtbean).root) start = some constructed ∧
      Faithful known s.properties constructed start ∧
      constructed.runAll? known calls = some o ∧
      Faithful known s.properties o left ∧
      ∀ call : Call α, call.Possible s.properties →
        ∃ o' emitted, call.run? known o = some (o', emitted) ∧
          Faithful known s.properties o' (call.result left) ∧
          call.Announces s.properties left emitted := by
  intro known left
  have hdistinct := distinct_of_check h hclasses
  have hknows := knows_behaviours (α := α) s hdistinct hnames
  have hroot : s.rootScope ∈ s.scopes := List.mem_append_right _ List.mem_cons_self
  obtain ⟨b, hb, hkeeps⟩ := hknows s.rootScope hroot
  obtain ⟨constructed, hadopt, hviews⟩ := hkeeps.adopt start hstart
  obtain ⟨o, hruns, hviews'⟩ := hviews.runAll? hknows hdistinct hroot hcalls
  refine ⟨Wrapper.written rfl, constructed, o, ?_, hviews.faithful hknows hdistinct hroot, hruns,
    hviews'.faithful hknows hdistinct hroot, fun call hcall => ?_⟩
  · rw [Object.adopt?, s.root_model, hb]
    exact hadopt
  · obtain ⟨o', emitted, hrun, hviews'', hannounces⟩ :=
      hviews'.run? hknows hdistinct hroot hcall
    exact ⟨o', emitted, hrun, hviews''.faithful hknows hdistinct hroot, hannounces⟩

/-- A trip with a title and the stops of its route. -/
def tripValue (title stops : String) : Datum String :=
  .record [("title", .plain title), ("route", .record [("stops", .plain stops)])]

/-- The wrapper of a trip shows what was set in it and in the wrapper of its route, and an update
that changes nothing but the stops is announced by the route alone. -/
theorem wrappers_faithful_trip :
    let known : Behaviours String :=
      behaviours ((tripDocument.typed .qtbean).model .qtbean).root
    let calls : List (Call String) :=
      [.set ["route"] "stops" (.plain "three stops"), .set [] "title" (.plain "Andes")]
    ∃ constructed o o' emitted,
      Object.adopt? known "TripObject" (tripValue "Alps" "two stops") = some constructed ∧
      constructed.runAll? known calls = some o ∧
      o.value? known = some (tripValue "Andes" "three stops") ∧
      (Call.update (tripValue "Andes" "four stops")).run? known o = some (o', emitted) ∧
      o'.value? known = some (tripValue "Andes" "four stops") ∧
      ⟨["route"], "stops"⟩ ∈ emitted ∧ ⟨[], "title"⟩ ∉ emitted := by
  intro known calls
  have hcheck : tripDocument.check .qtbean = .ok (tripDocument.typed .qtbean) := rfl
  have hfits (title stops : String) :
      FitsClass (tripDocument.typed .qtbean).properties (tripValue title stops) :=
    ⟨_, rfl, rfl, ⟨_, rfl⟩, rfl, ⟨rfl, ⟨_, rfl⟩, trivial⟩, trivial⟩
  have hcalls : ∀ call ∈ calls, call.Possible (tripDocument.typed .qtbean).properties := by
    let minutes : Property := ⟨"minutes", "int", .const, false, none, none⟩
    let stops : Property := ⟨"stops", "class", .readWrite, true, some ⟨"Stop", [minutes]⟩, none⟩
    let route : Property := ⟨"route", "class", .read, false, some ⟨"Route", [stops]⟩, none⟩
    let title : Property := ⟨"title", "QString", .readWrite, false, none, none⟩
    have hroute : Leads (tripDocument.typed .qtbean).properties [route.name] [stops] :=
      .inside (List.mem_cons_of_mem title List.mem_cons_self) rfl rfl (.here _)
    refine List.forall_mem_cons.mpr ⟨?_, List.forall_mem_singleton.mpr ?_⟩
    · exact .set (p := stops) hroute List.mem_cons_self rfl rfl ⟨_, rfl⟩
    · exact .set (p := title) (.here _) List.mem_cons_self rfl rfl ⟨_, rfl⟩
  obtain ⟨_, constructed, o, hadopt, _, hruns, ho, hnext⟩ :=
    wrappers_faithful hcheck (by decide) (by decide) (hfits "Alps" "two stops") hcalls
  obtain ⟨o', emitted, hrun, ho', _, hdue⟩ := hnext _ (.update (hfits "Andes" "four stops"))
  refine ⟨constructed, o, o', emitted, hadopt, hruns, ho.value, hrun, ho'.value, ?_, ?_⟩
  · refine (hdue _ _).mpr ⟨_, List.mem_cons_of_mem _ List.mem_cons_self, rfl, rfl, _, _, _, rfl,
      rfl, rfl, _, List.mem_cons_self, rfl, by decide, rfl, by decide⟩
  · rintro hmem
    obtain ⟨_, _, _, _, _, hne⟩ := (hdue _ _).mp hmem
    exact hne rfl

end Document

end BeanForge
