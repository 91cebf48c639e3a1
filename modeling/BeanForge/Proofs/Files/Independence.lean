import BeanForge.Proofs.Files.Outputs
/-!
# Models with a common stem

The files of models with the same stem stand in one directory and differ in what follows the stem.
Generating several models in any order, any of them more than once, therefore ends with the same
files, and with the directories that the first of them made.
-/
namespace BeanForge.Session

open FileTree

section

variable {m : Type → Type} [Monad m]

/-- Generates the files of a model and keeps no summary. -/
def generateOne [FileStore m] (model : Model) (stem directory : String) : Session m Unit := do
  let _ ← generate model stem directory

/-- Generates the files of several models, one model after the other. -/
def generateAll [FileStore m] (models : List Model) (stem directory : String) : Session m Unit :=
  models.forM fun model => generateOne model stem directory

end

/-- The result that a session on a file tree ends with, and the tree that it leaves. -/
def on {α : Type} (s : Session (StateM FileTree) α) (t : FileTree) :
    Except Failure α × FileTree :=
  let ((result, _), t') := (s.run.run []).run t
  (result, t')

lemma Ends.on_eq {α : Type} {s : Session (StateM FileTree) α} {t t' : FileTree}
    {result : Except Failure α} (h : s.Ends t result t') : s.on t = (result, t') := by
  obtain ⟨entries, hrun⟩ := h []
  rw [on, hrun]

/-- The files of a model, or none if it has no files. -/
def outputs (stem : String) (m : Model) : List OutputFile :=
  (m.files? stem).getD []

/-- Whether the files of a model can be written into a tree. -/
def Fitting (t : FileTree) (stem directory : String) (m : Model) : Prop :=
  (m.files? stem).isSome ∧
    ∀ file ∈ outputs stem m, t.Writable (FilePath.join directory file.name)

lemma exists_ends_generate (m : Model) (stem directory : String) (t : FileTree) :
    ∃ result t', (generate m stem directory).Ends t result t' := by
  cases h : m.files? stem with
  | none =>
    refine ⟨.error .unrenderable, t, ?_⟩
    rw [generate, h]
    exact ends_throw _ t
  | some files =>
    obtain ⟨_, t', _, hends⟩ := ends_generate h directory t
    exact ⟨_, t', hends⟩

lemma exists_ends_generateOne (m : Model) (stem directory : String) (t : FileTree) :
    ∃ result t', (generateOne m stem directory).Ends t result t' := by
  obtain ⟨result, t', hends⟩ := exists_ends_generate m stem directory t
  cases result with
  | error e => exact ⟨_, _, hends.bind_error⟩
  | ok _ => exact ⟨_, _, hends.bind (ends_pure _ _)⟩

lemma generateAll_cons (m : Model) (models : List Model) (stem directory : String) :
    (generateAll (m :: models) stem directory : Session (StateM FileTree) Unit) =
      generateOne m stem directory >>= fun _ => generateAll models stem directory := rfl

lemma exists_ends_generateAll (models : List Model) (stem directory : String) (t : FileTree) :
    ∃ result t', (generateAll models stem directory).Ends t result t' := by
  induction models generalizing t with
  | nil => exact ⟨_, _, ends_pure () t⟩
  | cons m models ih =>
    rw [generateAll_cons]
    obtain ⟨result, t', hends⟩ := exists_ends_generateOne m stem directory t
    cases result with
    | error e => exact ⟨_, _, hends.bind_error⟩
    | ok _ =>
      obtain ⟨result, t'', hends'⟩ := ih t'
      exact ⟨_, _, hends.bind hends'⟩

section

variable {stem directory : String} {t t' t₁ : FileTree} {m : Model} {models : List Model}

lemma SameDirectories.fitting (h : SameDirectories t t') (hm : Fitting t stem directory m) :
    Fitting t' stem directory m :=
  ⟨hm.1, fun file hfile => h.writable (hm.2 file hfile)⟩

lemma ends_generate_of_fitting
    (hensure : t.ensure (FilePath.around (FilePath.join directory stem)) = (.ok (), t₁))
    (h : Fitting t₁ stem directory m) :
    ∃ summary, (generate m stem directory).Ends t (.ok summary)
      (t₁.withOutputs directory (outputs stem m)) := by
  obtain ⟨files, hfiles⟩ := Option.isSome_iff_exists.mp h.1
  have houtputs : outputs stem m = files := by rw [outputs, hfiles, Option.getD_some]
  have hwritable := h.2
  rw [houtputs] at hwritable ⊢
  obtain ⟨result, t', hwrites, hends⟩ := ends_generate hfiles directory t
  cases hwrites with
  | noDirectory hmissing => cases hensure.symm.trans hmissing
  | stopped hensure' _ _ hstop =>
    cases hensure.symm.trans hensure'
    obtain ⟨file, hfile, hnot⟩ := hstop
    exact absurd (hwritable file hfile) hnot
  | written hensure' _ =>
    cases hensure.symm.trans hensure'
    exact ⟨_, hends⟩

lemma ends_generateOne_of_fitting
    (hensure : t.ensure (FilePath.around (FilePath.join directory stem)) = (.ok (), t₁))
    (h : Fitting t₁ stem directory m) :
    (generateOne m stem directory).Ends t (.ok ()) (t₁.withOutputs directory (outputs stem m)) := by
  obtain ⟨summary, hends⟩ := ends_generate_of_fitting hensure h
  exact hends.bind (ends_pure _ _)

lemma fitting_of_ends_generateOne (h : (generateOne m stem directory).Ends t (.ok ()) t') :
    ∃ t₁, t.ensure (FilePath.around (FilePath.join directory stem)) = (.ok (), t₁) ∧
      Fitting t₁ stem directory m := by
  obtain ⟨summary, t'', hends, _⟩ :=
    Ends.of_bind (exists_ends_generate m stem directory t) (fun _ t' => ⟨_, _, ends_pure _ t'⟩) h
  cases hfiles : m.files? stem with
  | none =>
    rw [generate, hfiles] at hends
    cases (hends.unique (ends_throw _ t)).1
  | some files =>
    obtain ⟨result, _, hwrites, hends'⟩ := ends_generate hfiles directory t
    obtain ⟨hresult, rfl⟩ := hends.unique hends'
    cases hwrites with
    | noDirectory _ => cases hresult
    | stopped _ _ _ _ => cases hresult
    | written hensure hwritable =>
      exact ⟨_, hensure, by simp [hfiles], by simpa [outputs, hfiles] using hwritable⟩

theorem ends_generateOne_iff :
    (generateOne m stem directory).Ends t (.ok ()) t' ↔
      ∃ t₁, t.ensure (FilePath.around (FilePath.join directory stem)) = (.ok (), t₁) ∧
        Fitting t₁ stem directory m ∧ t' = t₁.withOutputs directory (outputs stem m) := by
  constructor
  · intro h
    obtain ⟨t₁, hensure, hfitting⟩ := fitting_of_ends_generateOne h
    exact ⟨t₁, hensure, hfitting, (h.unique (ends_generateOne_of_fitting hensure hfitting)).2⟩
  · rintro ⟨t₁, hensure, hfitting, rfl⟩
    exact ends_generateOne_of_fitting hensure hfitting

lemma ends_generateAll_cons_iff :
    (generateAll (m :: models) stem directory).Ends t (.ok ()) t' ↔
      ∃ t₂, (generateOne m stem directory).Ends t (.ok ()) t₂ ∧
        (generateAll models stem directory).Ends t₂ (.ok ()) t' := by
  rw [generateAll_cons]
  constructor
  · intro h
    obtain ⟨_, t₂, hone, hall⟩ := Ends.of_bind (exists_ends_generateOne m stem directory t)
      (fun _ t₂ => exists_ends_generateAll models stem directory t₂) h
    exact ⟨t₂, hone, hall⟩
  · rintro ⟨t₂, hone, hall⟩
    exact hone.bind hall

/-- In a tree that has the directory, the files of each model are in the way of no other. -/
theorem ends_generateAll_of_ready
    (hready : t.Ready (FilePath.around (FilePath.join directory stem))) :
    (generateAll models stem directory).Ends t (.ok ()) t' ↔
      (∀ m ∈ models, Fitting t stem directory m) ∧
        t' = t.withOutputs directory (models.flatMap (outputs stem)) := by
  induction models generalizing t with
  | nil =>
    refine ⟨fun h => ⟨by simp, (h.unique (ends_pure () t)).2⟩, ?_⟩
    rintro ⟨_, rfl⟩
    exact ends_pure () _
  | cons m models ih =>
    have hensure := ensure_of_ready hready
    rw [ends_generateAll_cons_iff, List.forall_mem_cons, List.flatMap_cons, withOutputs_append]
    constructor
    · rintro ⟨t₂, hone, hall⟩
      obtain ⟨t₁, hensure', hfitting, rfl⟩ := ends_generateOne_iff.mp hone
      cases hensure.symm.trans hensure'
      have hsame := sameDirectories_withOutputs hfitting.2
      obtain ⟨hothers, rfl⟩ := (ih (hsame.ready hready)).mp hall
      exact ⟨⟨hfitting, fun m' hm' => SameDirectories.fitting hsame.symm (hothers m' hm')⟩, rfl⟩
    · rintro ⟨⟨hfitting, hothers⟩, rfl⟩
      have hsame := sameDirectories_withOutputs hfitting.2
      refine ⟨_, ends_generateOne_of_fitting hensure hfitting, (ih (hsame.ready hready)).mpr ?_⟩
      exact ⟨fun m' hm' => SameDirectories.fitting hsame (hothers m' hm'), rfl⟩

/-- What the first model needs is all that the others need. -/
theorem ends_generateAll_iff (hne : models ≠ []) :
    (generateAll models stem directory).Ends t (.ok ()) t' ↔
      ∃ t₁, t.ensure (FilePath.around (FilePath.join directory stem)) = (.ok (), t₁) ∧
        (∀ m ∈ models, Fitting t₁ stem directory m) ∧
        t' = t₁.withOutputs directory (models.flatMap (outputs stem)) := by
  obtain ⟨m, models, rfl⟩ := List.exists_cons_of_ne_nil hne
  constructor
  · intro h
    obtain ⟨t₂, hone, hall⟩ := ends_generateAll_cons_iff.mp h
    obtain ⟨t₁, hensure, hfitting, rfl⟩ := ends_generateOne_iff.mp hone
    have hready := ready_of_ensure hensure
    have hone' := ends_generateOne_of_fitting (ensure_of_ready hready) hfitting
    exact ⟨t₁, hensure, (ends_generateAll_of_ready hready).mp
      (ends_generateAll_cons_iff.mpr ⟨_, hone', hall⟩)⟩
  · rintro ⟨t₁, hensure, hall⟩
    have hall' := (ends_generateAll_of_ready (ready_of_ensure hensure)).mpr hall
    obtain ⟨t₂, hone, hrest⟩ := ends_generateAll_cons_iff.mp hall'
    have hone' := ends_generateOne_of_fitting hensure (hall.1 m List.mem_cons_self)
    have hready := ensure_of_ready (ready_of_ensure hensure)
    obtain ⟨_, rfl⟩ :=
      hone.unique (ends_generateOne_of_fitting hready (hall.1 m List.mem_cons_self))
    exact ends_generateAll_cons_iff.mpr ⟨_, hone', hrest⟩

/-- Writing the same files in another order, some of them more than once, gives the same tree. -/
lemma same_withOutputs {files files' : List OutputFile}
    (hwritable : ∀ file ∈ files, t.Writable (FilePath.join directory file.name))
    (halone : ∀ file ∈ files, ∀ other ∈ files, t.place (FilePath.join directory other.name) =
      t.place (FilePath.join directory file.name) → other = file)
    (hsame : ∀ file, file ∈ files ↔ file ∈ files') :
    (t.withOutputs directory files).Same (t.withOutputs directory files') := by
  have hwritable' : ∀ file ∈ files', t.Writable (FilePath.join directory file.name) :=
    fun file hfile => hwritable file ((hsame file).mpr hfile)
  refine ⟨?_, fun place => ?_⟩
  · rw [(sameDirectories_withOutputs hwritable).current,
      (sameDirectories_withOutputs hwritable').current]
  · by_cases hplace : ∃ file ∈ files, place = t.place (FilePath.join directory file.name)
    · obtain ⟨file, hfile, rfl⟩ := hplace
      rw [find?_withOutputs_of_mem hwritable hfile fun other hother heq =>
          congrArg _ (halone file hfile other hother heq),
        find?_withOutputs_of_mem hwritable' ((hsame file).mp hfile) fun other hother heq =>
          congrArg _ (halone file hfile other ((hsame other).mpr hother) heq)]
    · have hnot : ∀ file ∈ files, place ≠ t.place (FilePath.join directory file.name) :=
        fun file hfile heq => hplace ⟨file, hfile, heq⟩
      rw [find?_withOutputs_of_ne hwritable hnot,
        find?_withOutputs_of_ne hwritable' fun file hfile => hnot file ((hsame file).mpr hfile)]

lemma names_outputs (h : (m.files? stem).isSome) :
    (outputs stem m).map OutputFile.name = m.target.endings.map (stem ++ ·) := by
  obtain ⟨files, hfiles⟩ := Option.isSome_iff_exists.mp h
  rw [outputs, hfiles, Option.getD_some, m.names_of_files? hfiles]

/-- The files of a model can be written if there is room for them whatever they hold. -/
lemma fitting_of_write (h : (m.files? stem).isSome)
    (hwrite : ∀ ending ∈ m.target.endings,
      ∃ t', t.write (FilePath.join directory (stem ++ ending)) .empty = .ok t') :
    Fitting t stem directory m := by
  refine ⟨h, fun file hfile => ?_⟩
  have hname : file.name ∈ m.target.endings.map (stem ++ ·) :=
    names_outputs h ▸ List.mem_map_of_mem hfile
  obtain ⟨ending, hending, hname⟩ := List.mem_map.mp hname
  obtain ⟨_, hwritten⟩ := hwrite ending hending
  exact hname ▸ writable_of_write hwritten

/-- The six files of one model for each target. -/
lemma nodup_places_outputs {bean qtbean factory : Model} (hbean : bean.target = .bean)
    (hqtbean : qtbean.target = .qtbean) (hfactory : factory.target = .factory)
    (hfiles : ∀ m ∈ [bean, qtbean, factory], (m.files? stem).isSome) (directory : String)
    (t : FileTree) :
    ([bean, qtbean, factory].flatMap (outputs stem)).length = 6 ∧
      (([bean, qtbean, factory].flatMap (outputs stem)).map fun file =>
        t.place (FilePath.join directory file.name)).Nodup := by
  let endings := [Target.bean, .qtbean, .factory].flatMap Target.endings
  have hnames : ([bean, qtbean, factory].flatMap (outputs stem)).map OutputFile.name =
      endings.map (stem ++ ·) := by
    simp only [List.forall_mem_cons] at hfiles
    simp [names_outputs hfiles.1, names_outputs hfiles.2.1, names_outputs hfiles.2.2.1, hbean,
      hqtbean, hfactory, endings]
  constructor
  · have hlength := congrArg List.length hnames
    simpa [endings, Target.endings] using hlength
  · refine nodup_places hnames (fun ending hending => ?_) (by decide) directory t
    obtain ⟨_, _, hmem⟩ := List.mem_flatMap.mp hending
    exact Target.isEnding_of_mem hmem

/-- The files of several models with the same stem stand beside each other. -/
lemma beside_outputs (models : List Model) (stem directory : String) :
    OutputFile.Beside directory (FilePath.join directory stem)
      (models.flatMap (outputs stem)) := by
  intro file hfile
  obtain ⟨m, _, hfile⟩ := List.mem_flatMap.mp hfile
  cases hfiles : m.files? stem with
  | none => simp [outputs, hfiles] at hfile
  | some files =>
    rw [outputs, hfiles] at hfile
    exact m.beside_of_files? hfiles directory file hfile

lemma ends_generateAll_of_on (h : (generateAll models stem directory).on t = (.ok (), t')) :
    (generateAll models stem directory).Ends t (.ok ()) t' := by
  obtain ⟨result, t₂, hends⟩ := exists_ends_generateAll models stem directory t
  have heq := hends.on_eq
  rw [h] at heq
  cases heq
  exact hends

end

/-- Several models whose files can be written into one tree, no two of them at the same place. -/
structure Independent (t : FileTree) (stem directory : String) (models : List Model) : Prop where
  fitting : ∀ m ∈ models, Fitting t stem directory m
  nodup : ((models.flatMap (outputs stem)).map fun file =>
    t.place (FilePath.join directory file.name)).Nodup

namespace Independent

variable {t t₁ : FileTree} {stem directory : String} {models : List Model}

lemma writable (h : Independent t stem directory models) {calls : List Model}
    (hcalls : calls ⊆ models) :
    ∀ file ∈ calls.flatMap (outputs stem), t.Writable (FilePath.join directory file.name) := by
  intro file hfile
  obtain ⟨m, hm, hfile⟩ := List.mem_flatMap.mp hfile
  exact (h.fitting m (hcalls hm)).2 file hfile

lemma outputs_subset {calls : List Model} (hcalls : calls ⊆ models) :
    calls.flatMap (outputs stem) ⊆ models.flatMap (outputs stem) := by
  intro file hfile
  obtain ⟨m, hm, hfile⟩ := List.mem_flatMap.mp hfile
  exact List.mem_flatMap.mpr ⟨m, hcalls hm, hfile⟩

lemma alone (h : Independent t stem directory models) {file other : OutputFile}
    (hfile : file ∈ models.flatMap (outputs stem)) (hother : other ∈ models.flatMap (outputs stem))
    (heq : t.place (FilePath.join directory other.name) =
      t.place (FilePath.join directory file.name)) : other = file :=
  List.inj_on_of_nodup_map h.nodup hother hfile heq

/-- Which models are generated matters, their order and number do not. -/
lemma same (h : Independent t stem directory models) {calls calls' : List Model}
    (hcalls : calls ⊆ models) (hsame : ∀ m, m ∈ calls ↔ m ∈ calls') :
    (t.withOutputs directory (calls.flatMap (outputs stem))).Same
      (t.withOutputs directory (calls'.flatMap (outputs stem))) := by
  have hsub : calls.flatMap (outputs stem) ⊆ models.flatMap (outputs stem) := outputs_subset hcalls
  refine same_withOutputs (h.writable hcalls) (fun file hfile other hother heq => ?_) fun file => ?_
  · exact h.alone (hsub hfile) (hsub hother) heq
  · simp only [List.mem_flatMap, hsame]

lemma read (h : Independent t stem directory models) {calls : List Model} (hcalls : calls ⊆ models)
    {file : OutputFile} (hfile : file ∈ calls.flatMap (outputs stem)) :
    (t.withOutputs directory (calls.flatMap (outputs stem))).read
      (FilePath.join directory file.name) = .ok file.contents.toUTF8 := by
  refine read_withOutputs_of_mem (h.writable hcalls) hfile fun other hother heq => ?_
  rw [h.alone (outputs_subset hcalls hfile) (outputs_subset hcalls hother) heq]

lemma ends_generateAll (h : Independent t₁ stem directory models)
    (hensure : t.ensure (FilePath.around (FilePath.join directory stem)) = (.ok (), t₁))
    {calls : List Model} (hcalls : calls ⊆ models) (hne : calls ≠ []) :
    (generateAll calls stem directory).Ends t (.ok ())
      (t₁.withOutputs directory (calls.flatMap (outputs stem))) :=
  (ends_generateAll_iff hne).mpr ⟨t₁, hensure, fun m hm => h.fitting m (hcalls hm), rfl⟩

/-- What has been generated once is not changed by generating it again. -/
lemma ends_generate_again (h : Independent t₁ stem directory models)
    (hready : t₁.Ready (FilePath.around (FilePath.join directory stem)))
    {calls : List Model} (hcalls : calls ⊆ models) {m : Model} (hm : m ∈ calls) :
    ∃ summary t', (generate m stem directory).Ends
        (t₁.withOutputs directory (calls.flatMap (outputs stem))) (.ok summary) t' ∧
      t'.Same (t₁.withOutputs directory (calls.flatMap (outputs stem))) := by
  have hsame := sameDirectories_withOutputs (h.writable hcalls)
  obtain ⟨summary, hends⟩ := ends_generate_of_fitting (ensure_of_ready (hsame.ready hready))
    (SameDirectories.fitting hsame (h.fitting m (hcalls hm)))
  refine ⟨summary, _, hends, ?_⟩
  have happend : (calls ++ [m]).flatMap (outputs stem) =
      calls.flatMap (outputs stem) ++ outputs stem m := by simp
  rw [← withOutputs_append, ← happend]
  refine h.same (List.append_subset.mpr ⟨hcalls, by simpa using hcalls hm⟩) fun m' => ?_
  simpa using fun heq => heq ▸ hm

end Independent

/-- Models of the three targets are generated independently of each other: if generating them in
one order succeeds, then every order succeeds and leaves the same files, six of them new or
rewritten and the directories around them made if they were missing, and generating again what
has been generated changes nothing. -/
theorem generateAll_order_irrelevant {bean qtbean factory : Model} (hbean : bean.target = .bean)
    (hqtbean : qtbean.target = .qtbean) (hfactory : factory.target = .factory)
    {order : List Model} (horder : order.Perm [bean, qtbean, factory]) {stem directory : String}
    {before after : FileTree}
    (h : (generateAll order stem directory).on before = (.ok (), after)) :
    (∀ other : List Model, other.Perm [bean, qtbean, factory] →
      ∃ t, (generateAll other stem directory).on before = (.ok (), t) ∧ t.Same after) ∧
    (∃ b q f, bean.files? stem = some b ∧ qtbean.files? stem = some q ∧
      factory.files? stem = some f ∧
      (b ++ q ++ f).length = 6 ∧
      ((b ++ q ++ f).map fun file => before.place (FilePath.join directory file.name)).Nodup ∧
      (∀ file ∈ b ++ q ++ f,
        after.read (FilePath.join directory file.name) = .ok file.contents.toUTF8) ∧
      ChangedAtMost ((b ++ q ++ f).map fun file => FilePath.join directory file.name)
        before after) ∧
    (∀ calls ⊆ [bean, qtbean, factory],
      ∃ t, (generateAll calls stem directory).on before = (.ok (), t) ∧
        ∀ m ∈ calls, ∃ summary t',
          (generate m stem directory).on t = (.ok summary, t') ∧ t'.Same t) := by
  have hne : order ≠ [] := by
    rintro rfl
    simp at horder
  obtain ⟨t₁, hensure, hfitting, rfl⟩ :=
    (ends_generateAll_iff hne).mp (ends_generateAll_of_on h)
  have hall : ∀ m ∈ [bean, qtbean, factory], Fitting t₁ stem directory m :=
    fun m hm => hfitting m (horder.mem_iff.mpr hm)
  obtain ⟨hlength, hnodup⟩ := nodup_places_outputs hbean hqtbean hfactory
    (fun m hm => (hall m hm).1) directory t₁
  have hindependent : Independent t₁ stem directory [bean, qtbean, factory] := ⟨hall, hnodup⟩
  have hgrown := grown_of_ensure (beside_outputs [bean, qtbean, factory] stem directory) hensure
  refine ⟨fun other hother => ?_, ?_, fun calls hcalls => ?_⟩
  · have hne' : other ≠ [] := by
      rintro rfl
      simp at hother
    have hends := hindependent.ends_generateAll hensure hother.subset hne'
    exact ⟨_, hends.on_eq,
      hindependent.same hother.subset fun m => (hother.trans horder.symm).mem_iff⟩
  · obtain ⟨b, hb⟩ := Option.isSome_iff_exists.mp (hall bean (by simp)).1
    obtain ⟨q, hq⟩ := Option.isSome_iff_exists.mp (hall qtbean (by simp)).1
    obtain ⟨f, hf⟩ := Option.isSome_iff_exists.mp (hall factory (by simp)).1
    have hfiles : [bean, qtbean, factory].flatMap (outputs stem) = b ++ q ++ f := by
      simp [outputs, hb, hq, hf]
    have houtputs : ∀ {file}, file ∈ order.flatMap (outputs stem) ↔
        file ∈ [bean, qtbean, factory].flatMap (outputs stem) :=
      (horder.flatMap_right (outputs stem)).mem_iff
    refine ⟨b, q, f, hb, hq, hf, hfiles ▸ hlength, ?_, fun file hfile => ?_, ?_⟩
    · simpa only [hfiles, place_congr hgrown.current] using hnodup
    · exact hindependent.read horder.subset (houtputs.mpr (hfiles ▸ hfile))
    · rw [← hfiles]
      refine changedAtMost_withOutputs ?_ hgrown (fun file => houtputs.mp)
        (hindependent.writable horder.subset)
      exact List.ne_nil_of_length_pos (hlength ▸ by decide)
  · by_cases hnil : calls = []
    · subst hnil
      exact ⟨before, (ends_pure () before).on_eq, by simp⟩
    have hends := hindependent.ends_generateAll hensure hcalls hnil
    refine ⟨_, hends.on_eq, fun m hm => ?_⟩
    obtain ⟨summary, t', hagain, hsame⟩ :=
      hindependent.ends_generate_again (ready_of_ensure hensure) hcalls hm
    exact ⟨summary, t', hagain.on_eq, hsame⟩

def pairSchema : Schema :=
  ⟨"Pair", "app", [{ name := "left", typeName := "int", access := .read }]⟩

lemma fitting_pairSchema (target : Target) :
    Fitting ⟨[(["out"], .directory)], []⟩ "pair" "out" (pairSchema.model target) := by
  refine fitting_of_write (by cases target <;> decide +kernel) ?_
  cases target <;>
    exact List.forall_mem_cons.mpr ⟨⟨_, rfl⟩, List.forall_mem_singleton.mpr ⟨_, rfl⟩⟩

/-- The files of a schema may be generated for the factory first, in a directory to be made. -/
theorem generateAll_order_irrelevant_pair :
    ∃ after, (generateAll [pairSchema.model .factory, pairSchema.model .bean,
        pairSchema.model .qtbean] "pair" "out").on {} = (.ok (), after) ∧
      ∃ t, (generateAll [pairSchema.model .bean, pairSchema.model .qtbean,
        pairSchema.model .factory] "pair" "out").on {} = (.ok (), t) ∧ t.Same after := by
  have hensure : ({} : FileTree).ensure (FilePath.around (FilePath.join "out" "pair")) =
      (.ok (), ⟨[(["out"], .directory)], []⟩) := rfl
  have hfitting : ∀ m ∈ [pairSchema.model .factory, pairSchema.model .bean,
      pairSchema.model .qtbean], Fitting ⟨[(["out"], .directory)], []⟩ "pair" "out" m := by
    simp [fitting_pairSchema]
  have hends := (ends_generateAll_iff (List.cons_ne_nil _ _)).mpr ⟨_, hensure, hfitting, rfl⟩
  have horder : [pairSchema.model .factory, pairSchema.model .bean, pairSchema.model .qtbean].Perm
      [pairSchema.model .bean, pairSchema.model .qtbean, pairSchema.model .factory] :=
    (List.Perm.swap _ _ _).trans (.cons _ (.swap _ _ _))
  exact ⟨_, hends.on_eq, (generateAll_order_irrelevant rfl rfl rfl horder hends.on_eq).1 _ (.refl _)⟩

end BeanForge.Session
