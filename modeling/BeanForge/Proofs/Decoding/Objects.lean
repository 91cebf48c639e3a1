import BeanForge.Proofs.Decoder.Names
import BeanForge.Proofs.Decoding.Statements
/-!
# The objects that a body binds

After the steps of a decode plan, the local of every object of the plan holds the object that its
segments lead to, by the keys that their expressions denote. Each step finds its object in a local
that was bound before, and no later local has the same name.
-/
namespace BeanForge.Decoding

open Decoder

variable {α β : Type}

/-- The objects that are at hand after some steps of the plan of a class are in their locals. -/
def ObjectsBound (c : ClassModel) (o : Fields α) (before : List Lookup)
    (locals : Locals α β) : Prop :=
  ∀ segments name, Reachable before segments → lastOf (objectTable c) segments = some name →
    locals.lookup name = some (.object (walk o (segments.tail.map denoted)))

/-- The local of the document is the parameter of the function. -/
lemma lastOf_root {c : ClassModel} {paths : List String} (hplan : steps c = decodePlan paths)
    {name : String} (h : lastOf (objectTable c) [JsonPath.rootSegment] = some name) :
    name = rootLocal := by
  rcases List.mem_cons.mp (mem_of_lastOf h) with heq | hstep
  · exact (Prod.mk.inj heq).2
  · obtain ⟨⟨l, i⟩, hl, heq⟩ := List.mem_map.mp hstep
    have hsegments : l.segments ∈ (decodePlan paths).map Lookup.segments := by
      rw [← hplan]
      exact List.mem_map_of_mem (List.fst_mem_of_mem_zipIdx hl)
    have hlength := ((mem_segments_decodePlan paths _).mp hsegments).1
    rw [(Prod.mk.inj heq).1] at hlength
    simp at hlength

lemma objectsBound_nil {c : ClassModel} {paths : List String}
    (hplan : steps c = decodePlan paths) (o : Fields α) :
    ObjectsBound c o [] ([(rootLocal, .object o)] : Locals α β) := by
  rintro segments name (rfl | hmem) hname
  · rw [lastOf_root hplan hname]
    exact Locals.lookup_cons_self _ _ _
  · simp at hmem

lemma walk_segments_tail (o : Fields α) {l : Lookup} (h : l.parents ≠ []) :
    walk o (l.segments.tail.map denoted) =
      asObject ((walk o (l.parents.tail.map denoted)).lookup (denoted l.key)) := by
  rw [Lookup.segments, List.tail_append_of_ne_nil h, List.map_append, walk_append]
  rfl

/-- A step binds its object and leaves the others as they are. -/
lemma objectsBound_step {c : ClassModel} {o : Fields α} {before : List Lookup} {l : Lookup}
    {locals : Locals α β} {own parent : String} (hbound : ObjectsBound c o before locals)
    (hparents : Reachable before l.parents)
    (hown : lastOf (objectTable c) l.segments = some own)
    (hparent : lastOf (objectTable c) l.parents = some parent)
    (C : Conversion α β) (functions : Functions α β) :
    ∃ locals', step C functions locals (.bind own parent l.key) = .ok locals' ∧
      ObjectsBound c o (before ++ [l]) locals' := by
  have hobject := hbound _ _ hparents hparent
  refine ⟨(own, .object (walk o (l.segments.tail.map denoted))) :: locals, ?_, ?_⟩
  · rw [step, Locals.object_eq_ok_iff.mpr hobject, Fallible.ok_bind, lookUp_eq,
      walk_segments_tail o hparents.ne_nil]
    rfl
  · intro segments name hreach hname
    by_cases heq : name = own
    · subst heq
      rw [Locals.lookup_cons_self, key_eq_of_lastOf (nodup_locals_objectTable c) hname hown]
    · rw [Locals.lookup_cons_of_ne heq]
      have hne : segments ≠ l.segments := by
        rintro rfl
        exact heq (Option.some.inj (hname.symm.trans hown))
      refine hbound segments name ?_ hname
      rcases hreach with hroot | hmem
      · exact .inl hroot
      · rw [List.map_append, List.mem_append] at hmem
        exact .inr (hmem.resolve_right (by simpa using hne))

/-- The steps of a plan bind all objects that are at hand after the plan. -/
theorem objectsBound_steps {c : ClassModel} {paths : List String}
    (hplan : steps c = decodePlan paths) {binds : List Statement}
    (hbinds : (steps c).mapM (bindStatement (objectTable c)) = some binds)
    (C : Conversion α β) (functions : Functions α β) (o : Fields α) :
    ∃ locals, runAll C functions [(rootLocal, .object o)] binds = .ok locals ∧
      ObjectsBound c o (steps c) locals := by
  have hgo : ∀ (after before : List Lookup) (binds : List Statement) (locals : Locals α β),
      steps c = before ++ after → ObjectsBound c o before locals →
        after.mapM (bindStatement (objectTable c)) = some binds →
          ∃ locals', runAll C functions locals binds = .ok locals' ∧
            ObjectsBound c o (steps c) locals' := by
    intro after
    induction after with
    | nil =>
      intro before binds locals hsteps hbound hbinds
      obtain rfl : binds = [] := by simpa [eq_comm] using hbinds
      rw [List.append_nil] at hsteps
      exact ⟨locals, rfl, hsteps ▸ hbound⟩
    | cons l after ih =>
      intro before binds locals hsteps hbound hbinds
      obtain ⟨s, rest, hs, hrest, rfl⟩ := Fallible.mapM_cons_eq_some_iff.mp hbinds
      obtain ⟨own, parent, hown, hparent, rfl⟩ := bindStatement_eq_some_iff.mp hs
      have hparents := reachable_parents_of_decodePlan (hplan ▸ hsteps)
      obtain ⟨locals', hstep, hbound'⟩ :=
        objectsBound_step hbound hparents hown hparent C functions
      obtain ⟨locals'', hrun, hbound''⟩ := ih (before ++ [l]) rest locals' (by simp [hsteps])
        hbound' hrest
      refine ⟨locals'', ?_, hbound''⟩
      rw [runAll_cons, hstep, Fallible.ok_bind, hrun]
  exact hgo (steps c) [] binds _ rfl (objectsBound_nil hplan o) hbinds

/-- Locals of properties are not those of objects. -/
lemma ne_fieldLocal_of_lastOf {c : ClassModel} {segments : List String} {name : String}
    (h : lastOf (objectTable c) segments = some name) (property : String) :
    name ≠ fieldLocal property := by
  rcases List.mem_cons.mp (mem_of_lastOf h) with heq | hstep
  · rw [(Prod.mk.inj heq).2]
    exact (fieldLocal_ne_rootLocal property).symm
  · obtain ⟨⟨l, i⟩, _, heq⟩ := List.mem_map.mp hstep
    rw [← (Prod.mk.inj heq).2]
    exact (fieldLocal_ne_objectLocal property i l.key).symm

/-- Objects stay in their locals while properties are read. -/
lemma ObjectsBound.of_sameBut {c : ClassModel} {o : Fields α} {before : List Lookup}
    {locals locals' : Locals α β} (h : ObjectsBound c o before locals) {property : String}
    (hsame : locals.SameBut (fieldLocal property) locals') : ObjectsBound c o before locals' := by
  intro segments name hreach hname
  rw [hsame name (ne_fieldLocal_of_lastOf hname property)]
  exact h segments name hreach hname

end BeanForge.Decoding
