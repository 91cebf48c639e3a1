import BeanForge.Proofs.Files.Steps
import Mathlib.Data.List.Nodup
/-!
# Writing the files of a model

The files of one model, and those of all models with the same stem, stand in one directory. The
first of them makes this directory. From then on it stays, and whether the other files can be
written is decided by the tree in which it was made, as no file takes the place of a directory.
-/
namespace BeanForge

/-- What follows the stem in the names of the two files of a target. -/
def Target.endings : Target → List String
  | .bean => [".h", ".cpp"]
  | .qtbean => ["object.h", "object.cpp"]
  | .factory => ["jsonfactory.h", "jsonfactory.cpp"]

lemma Target.isEnding_of_mem {target : Target} {ending : String} (h : ending ∈ target.endings) :
    FilePath.IsEnding ending := by
  cases target <;> simp only [endings, List.mem_cons, List.not_mem_nil, or_false] at h <;>
    rcases h with rfl | rfl <;> exact ⟨by decide, by simp⟩

lemma Model.names_of_files? {m : Model} {stem : String} {files : List OutputFile}
    (h : m.files? stem = some files) :
    files.map OutputFile.name = m.target.endings.map (stem ++ ·) := by
  rw [Model.files?] at h
  cases htarget : m.target with
  | bean =>
    rw [htarget] at h
    cases h
    rfl
  | qtbean =>
    rw [htarget] at h
    cases h
    rfl
  | factory =>
    rw [htarget] at h
    obtain ⟨source, -, hfiles⟩ := Option.bind_eq_some_iff.mp h
    cases hfiles
    rfl

/-- Files whose names in a directory are endings to one base. -/
def OutputFile.Beside (directory base : String) (files : List OutputFile) : Prop :=
  ∀ file ∈ files, ∃ ending, FilePath.IsEnding ending ∧
    FilePath.join directory file.name = base ++ ending

lemma Model.beside_of_files? {m : Model} {stem : String} {files : List OutputFile}
    (h : m.files? stem = some files) (directory : String) :
    OutputFile.Beside directory (FilePath.join directory stem) files := by
  intro file hfile
  have hname : file.name ∈ m.target.endings.map (stem ++ ·) :=
    m.names_of_files? h ▸ List.mem_map_of_mem hfile
  obtain ⟨ending, hending, hname⟩ := List.mem_map.mp hname
  have hgood := Target.isEnding_of_mem hending
  exact ⟨ending, hgood, by rw [← hname, FilePath.join_append hgood]⟩

namespace FileTree

/-- The tree with the contents of generated files at their paths. -/
def withOutputs (t : FileTree) (directory : String) (files : List OutputFile) : FileTree :=
  files.foldl (fun t file =>
    t.put (t.place (FilePath.join directory file.name)) (.file file.contents.toUTF8)) t

section

variable {t : FileTree} {directory : String} {files : List OutputFile}

lemma withOutputs_cons (t : FileTree) (directory : String) (file : OutputFile)
    (files : List OutputFile) :
    t.withOutputs directory (file :: files) =
      (t.put (t.place (FilePath.join directory file.name)) (.file file.contents.toUTF8)).withOutputs
        directory files := rfl

lemma withOutputs_append (t : FileTree) (directory : String) (files more : List OutputFile) :
    t.withOutputs directory (files ++ more) =
      (t.withOutputs directory files).withOutputs directory more :=
  List.foldl_append

lemma sameDirectories_withOutputs
    (h : ∀ file ∈ files, t.Writable (FilePath.join directory file.name)) :
    SameDirectories t (t.withOutputs directory files) := by
  induction files generalizing t with
  | nil => exact .refl t
  | cons file files ih =>
    obtain ⟨hfile, hfiles⟩ := List.forall_mem_cons.mp h
    have hput := hfile.sameDirectories_put file.contents.toUTF8
    exact hput.trans (ih fun file' hfile' => hput.writable (hfiles file' hfile'))

lemma find?_withOutputs_of_ne
    (h : ∀ file ∈ files, t.Writable (FilePath.join directory file.name)) {place : Place}
    (hne : ∀ file ∈ files, place ≠ t.place (FilePath.join directory file.name)) :
    (t.withOutputs directory files).find? place = t.find? place := by
  induction files generalizing t with
  | nil => rfl
  | cons file files ih =>
    obtain ⟨hfile, hfiles⟩ := List.forall_mem_cons.mp h
    obtain ⟨hplace, hplaces⟩ := List.forall_mem_cons.mp hne
    have hput := hfile.sameDirectories_put file.contents.toUTF8
    rw [withOutputs_cons, ih (fun file' hfile' => hput.writable (hfiles file' hfile'))
      (fun file' hfile' => (hplaces file' hfile').trans_eq (place_congr hput.current _).symm),
      find?_put _ _ _ _ hfile.place_ne_nil, if_neg hplace]

/-- A file holds its contents if no other file has its place with other contents. -/
lemma find?_withOutputs_of_mem
    (h : ∀ file ∈ files, t.Writable (FilePath.join directory file.name)) {file : OutputFile}
    (hmem : file ∈ files)
    (halone : ∀ other ∈ files, t.place (FilePath.join directory other.name) =
      t.place (FilePath.join directory file.name) → other.contents = file.contents) :
    (t.withOutputs directory files).find? (t.place (FilePath.join directory file.name)) =
      some (.file file.contents.toUTF8) := by
  induction files using List.reverseRecOn with
  | nil => contradiction
  | append_singleton files last ih =>
    have hfiles := fun other hother => h other (List.mem_append_left [last] hother)
    have hsame := sameDirectories_withOutputs hfiles
    have hlast := hsame.writable (h last (by simp))
    rw [withOutputs_append, withOutputs_cons, withOutputs, List.foldl_nil,
      find?_put _ _ _ _ hlast.place_ne_nil, place_congr hsame.current]
    split
    · rename_i hplace
      rw [halone last (by simp) hplace.symm]
    · rename_i hplace
      have hmem' : file ∈ files := by
        rcases List.mem_append.mp hmem with hmem | hmem
        · exact hmem
        · exact absurd (by rw [List.mem_singleton.mp hmem]) hplace
      exact ih hfiles hmem' fun other hother => halone other (List.mem_append_left _ hother)

lemma read_withOutputs_of_mem
    (h : ∀ file ∈ files, t.Writable (FilePath.join directory file.name)) {file : OutputFile}
    (hmem : file ∈ files)
    (halone : ∀ other ∈ files, t.place (FilePath.join directory other.name) =
      t.place (FilePath.join directory file.name) → other.contents = file.contents) :
    (t.withOutputs directory files).read (FilePath.join directory file.name) =
      .ok file.contents.toUTF8 := by
  have hsame := sameDirectories_withOutputs h
  rw [read_eq_ok_iff, place_congr hsame.current]
  exact ⟨hsame.writable (h file hmem), find?_withOutputs_of_mem h hmem halone⟩

/-- Files with different endings to one stem have different places. -/
lemma nodup_places {stem : String} {endings : List String}
    (hnames : files.map OutputFile.name = endings.map (stem ++ ·))
    (hendings : ∀ ending ∈ endings, FilePath.IsEnding ending) (hnodup : endings.Nodup)
    (directory : String) (t : FileTree) :
    (files.map fun file => t.place (FilePath.join directory file.name)).Nodup := by
  have hplaces : files.map (fun file => t.place (FilePath.join directory file.name)) =
      endings.map fun ending => t.place (FilePath.join directory (stem ++ ending)) := by
    have hmap := congrArg (List.map fun name => t.place (FilePath.join directory name)) hnames
    simpa only [List.map_map, Function.comp_def] using hmap
  rw [hplaces]
  refine List.Nodup.map_on (fun e he e' he' heq => ?_) hnodup
  rw [FilePath.join_append (hendings e he), FilePath.join_append (hendings e' he')] at heq
  exact place_append_injective (hendings e he) (hendings e' he') heq

lemma nodup_places_of_files? {m : Model} {stem : String} (h : m.files? stem = some files)
    (directory : String) (t : FileTree) :
    (files.map fun file => t.place (FilePath.join directory file.name)).Nodup := by
  refine nodup_places (m.names_of_files? h) (fun _ => Target.isEnding_of_mem) ?_ directory t
  cases m.target <;> decide

lemma passes_place {path outer : String} (h : FilePath.OnWay outer path) (t : FileTree) :
    t.Passes path (t.place outer) :=
  ⟨FilePath.names outer, h.names, by rw [place, start, start, h.isAbsolute_eq]⟩

/-- The directories that are made for generated files are on the way to each of them. -/
lemma grown_of_ensure {base : String} (hbeside : OutputFile.Beside directory base files)
    {result : Except FileError Unit} {t' : FileTree}
    (h : t.ensure (FilePath.around base) = (result, t')) :
    Grown (fun place => ∀ file ∈ files, t.Passes (FilePath.join directory file.name) place) t t' := by
  have hmade := (made_makeAll (FilePath.ancestors (FilePath.around base)) t).grown
  rw [← ensure_eq, h] at hmade
  refine hmade.mono ?_
  rintro place ⟨outer, houter, rfl⟩ file hfile
  obtain ⟨ending, hending, hpath⟩ := hbeside file hfile
  exact hpath ▸ passes_place (FilePath.onWay_of_mem_ancestors hending houter) t

/-- Making a directory and then writing some of the files changes nothing else. -/
lemma changedAtMost_withOutputs {t' : FileTree} (hne : files ≠ [])
    (hgrown : Grown
      (fun place => ∀ file ∈ files, t.Passes (FilePath.join directory file.name) place) t t')
    {done : List OutputFile} (hdone : done ⊆ files)
    (hwritable : ∀ file ∈ done, t'.Writable (FilePath.join directory file.name)) :
    ChangedAtMost (files.map fun file => FilePath.join directory file.name) t
      (t'.withOutputs directory done) := by
  have hsame := sameDirectories_withOutputs hwritable
  refine ⟨hsame.current.trans hgrown.current, fun place hplace => ?_⟩
  have hother : ∀ file ∈ done, place ≠ t'.place (FilePath.join directory file.name) := by
    intro file hfile
    rw [place_congr hgrown.current]
    exact hplace _ (List.mem_map_of_mem (hdone hfile))
  rw [find?_withOutputs_of_ne hwritable hother]
  refine (hgrown.find? place).imp_right fun ⟨hnone, hdirectory, hpasses⟩ => ?_
  obtain ⟨file, hfile⟩ := List.exists_mem_of_ne_nil _ hne
  exact ⟨hnone, hdirectory, _, List.mem_map_of_mem hfile, hpasses file hfile⟩

end

end FileTree

namespace Session

open FileTree

section

variable {directory base : String} {t t' : FileTree} {file : OutputFile}

lemma ends_writeFile {path outer : String} (hparent : FilePath.parent? path = some outer)
    {result : Except Failure Unit} {t'' : FileTree} (contents : String)
    (hensure : t.ensure outer = (.ok (), t'))
    (hwrite : (store (FileStore.write path contents.toUTF8) (.unwritable path)).Ends t' result t'') :
    (writeFile path contents).Ends t result t'' := by
  have hmake := ends_store hensure (.unwritable outer)
  rw [writeFile, hparent]
  exact hmake.bind hwrite

lemma ends_writeOutput_of_writable {outer : String}
    (hparent : FilePath.parent? (FilePath.join directory file.name) = some outer)
    (hensure : t.ensure outer = (.ok (), t'))
    (h : t'.Writable (FilePath.join directory file.name)) :
    (writeOutput directory file).Ends t (.ok ()) (t'.withOutputs directory [file]) := by
  have hrun := run_write t' (FilePath.join directory file.name) file.contents.toUTF8
  rw [write_of_writable h] at hrun
  exact (ends_writeFile hparent _ hensure (ends_store hrun _)).bind (ends_log _ _ _ _)

lemma ends_writeOutput_of_not_writable {outer : String}
    (hparent : FilePath.parent? (FilePath.join directory file.name) = some outer)
    (hensure : t.ensure outer = (.ok (), t'))
    (h : ¬ t'.Writable (FilePath.join directory file.name)) :
    ∃ e, (writeOutput directory file).Ends t (.error e) t' := by
  obtain ⟨e, hwrite⟩ : ∃ e, t'.write (FilePath.join directory file.name)
      file.contents.toUTF8 = .error e := by
    cases hwrite : t'.write (FilePath.join directory file.name) file.contents.toUTF8 with
    | error e => exact ⟨e, rfl⟩
    | ok t'' => exact absurd (writable_of_write hwrite) h
  have hrun := run_write t' (FilePath.join directory file.name) file.contents.toUTF8
  rw [hwrite] at hrun
  exact ⟨_, (ends_writeFile hparent _ hensure (ends_store hrun _)).bind_error⟩

lemma ends_writeOutput_of_missing {outer : String} {e : FileError}
    (hparent : FilePath.parent? (FilePath.join directory file.name) = some outer)
    (hensure : t.ensure outer = (.error e, t')) :
    ∃ e, (writeOutput directory file).Ends t (.error e) t' := by
  have hmake := ends_store hensure (.unwritable outer)
  refine ⟨.unwritable outer e, ?_⟩
  rw [writeOutput, writeFile, hparent]
  exact hmake.bind_error.bind_error

end

/-- How writing files that stand in one directory can end: the directory cannot be made, or one of
the files cannot be written and those before it are, or all are. -/
inductive Writes (directory outer : String) (files : List OutputFile) (t : FileTree) :
    Except Failure Unit → FileTree → Prop
  | noDirectory {e : FileError} {f : Failure} {t' : FileTree}
      (hensure : t.ensure outer = (.error e, t')) : Writes directory outer files t (.error f) t'
  | stopped {f : Failure} {t' : FileTree} {done : List OutputFile}
      (hensure : t.ensure outer = (.ok (), t')) (hdone : done <+: files)
      (hwritable : ∀ file ∈ done, t'.Writable (FilePath.join directory file.name))
      (hstop : ∃ file ∈ files, ¬ t'.Writable (FilePath.join directory file.name)) :
      Writes directory outer files t (.error f) (t'.withOutputs directory done)
  | written {t' : FileTree} (hensure : t.ensure outer = (.ok (), t'))
      (hwritable : ∀ file ∈ files, t'.Writable (FilePath.join directory file.name)) :
      Writes directory outer files t (.ok ()) (t'.withOutputs directory files)

/-- Once the first file is written, the others find their directory. -/
lemma Writes.cons {directory outer : String} {file : OutputFile} {files : List OutputFile}
    {t t' t'' : FileTree} {result : Except Failure Unit}
    (hensure : t.ensure outer = (.ok (), t'))
    (hwritable : t'.Writable (FilePath.join directory file.name))
    (h : Writes directory outer files (t'.withOutputs directory [file]) result t'') :
    Writes directory outer (file :: files) t result t'' := by
  have hsingle : ∀ other ∈ [file], t'.Writable (FilePath.join directory other.name) := by
    simpa using hwritable
  have hsame := sameDirectories_withOutputs hsingle
  have hready := ensure_of_ready (hsame.ready (ready_of_ensure hensure))
  have hjoin : ∀ done, (t'.withOutputs directory [file]).withOutputs directory done =
    t'.withOutputs directory (file :: done) := fun _ => rfl
  cases h with
  | noDirectory hmissing => cases hready.symm.trans hmissing
  | stopped hensure' hdone hdoneWritable hstop =>
    cases hready.symm.trans hensure'
    obtain ⟨failing, hfailing, hnot⟩ := hstop
    rw [hjoin]
    refine .stopped hensure (List.cons_prefix_cons.mpr ⟨rfl, hdone⟩) ?_
      ⟨failing, List.mem_cons_of_mem _ hfailing, fun h => hnot (hsame.writable h)⟩
    exact List.forall_mem_cons.mpr ⟨hwritable, fun other hother =>
      hsame.symm.writable (hdoneWritable other hother)⟩
  | written hensure' hall =>
    cases hready.symm.trans hensure'
    rw [hjoin]
    exact .written hensure (List.forall_mem_cons.mpr ⟨hwritable, fun other hother =>
      hsame.symm.writable (hall other hother)⟩)

/-- Writing files that stand beside each other ends in one of the three ways. -/
theorem ends_outputs {directory base : String} {files : List OutputFile} (hne : files ≠ [])
    (hbeside : OutputFile.Beside directory base files) (t : FileTree) :
    ∃ result t', Ends (files.forM (writeOutput directory)) t result t' ∧
      Writes directory (FilePath.around base) files t result t' := by
  induction files generalizing t with
  | nil => contradiction
  | cons file files ih =>
    obtain ⟨⟨ending, hending, hpath⟩, hrest⟩ := List.forall_mem_cons.mp hbeside
    have hparent : FilePath.parent? (FilePath.join directory file.name) =
        some (FilePath.around base) := hpath ▸ FilePath.parent?_append hending base
    have hcons : (file :: files).forM (writeOutput (m := StateM FileTree) directory) =
      writeOutput directory file >>= fun _ => files.forM (writeOutput directory) := rfl
    rw [hcons]
    rcases hensure : t.ensure (FilePath.around base) with ⟨_ | _, t'⟩
    · obtain ⟨e, hends⟩ := ends_writeOutput_of_missing hparent hensure
      exact ⟨_, _, hends.bind_error, .noDirectory hensure⟩
    by_cases hwritable : t'.Writable (FilePath.join directory file.name)
    · have hends := ends_writeOutput_of_writable hparent hensure hwritable
      by_cases hlast : files = []
      · subst hlast
        exact ⟨_, _, hends.bind (ends_pure _ _), .written hensure (by simpa using hwritable)⟩
      · obtain ⟨result, t'', hends', hwrites⟩ := ih hlast hrest (t'.withOutputs directory [file])
        exact ⟨result, t'', hends.bind hends', hwrites.cons hensure hwritable⟩
    · obtain ⟨e, hends⟩ := ends_writeOutput_of_not_writable hparent hensure hwritable
      exact ⟨_, _, hends.bind_error, .stopped hensure List.nil_prefix (by simp)
        ⟨file, List.mem_cons_self, hwritable⟩⟩

namespace Writes

variable {directory base : String} {files : List OutputFile} {t t' : FileTree}
  {result : Except Failure Unit}

lemma changedAtMost (h : Writes directory (FilePath.around base) files t result t')
    (hne : files ≠ []) (hbeside : OutputFile.Beside directory base files) :
    ChangedAtMost (files.map fun file => FilePath.join directory file.name) t t' := by
  cases h with
  | noDirectory hensure =>
    have hgrown := grown_of_ensure hbeside hensure
    exact changedAtMost_withOutputs hne hgrown (List.nil_subset _) (by simp)
  | stopped hensure hdone hwritable _ =>
    exact changedAtMost_withOutputs hne (grown_of_ensure hbeside hensure) hdone.subset hwritable
  | written hensure hwritable =>
    have hgrown := grown_of_ensure hbeside hensure
    exact changedAtMost_withOutputs hne hgrown (List.Subset.refl _) hwritable

/-- All went well if, and only if, every file can be found with its contents afterwards. -/
lemma eq_ok_iff (h : Writes directory (FilePath.around base) files t result t')
    (hne : files ≠ []) (hbeside : OutputFile.Beside directory base files)
    (hnodup : ∀ t : FileTree,
      (files.map fun file => t.place (FilePath.join directory file.name)).Nodup) :
    result = .ok () ↔ ∀ file ∈ files,
      t'.read (FilePath.join directory file.name) = .ok file.contents.toUTF8 := by
  cases h with
  | @noDirectory e f t' hensure =>
    refine iff_of_false nofun fun hread => ?_
    have hmade := made_makeAll (FilePath.ancestors (FilePath.around base)) t
    rw [← ensure_eq, hensure] at hmade
    obtain ⟨outer, houter, hmissing⟩ := hmade.missing e rfl
    obtain ⟨file, hfile⟩ := List.exists_mem_of_ne_nil _ hne
    obtain ⟨ending, hending, hpath⟩ := hbeside file hfile
    have hwritable := ((read_eq_ok_iff ..).mp (hread file hfile)).1
    rw [hpath] at hwritable
    exact hmissing (hwritable.isDirectory (FilePath.onWay_of_mem_ancestors hending houter))
  | stopped _ _ hwritable hstop =>
    refine iff_of_false nofun fun hread => ?_
    obtain ⟨file, hfile, hnot⟩ := hstop
    have hsame := sameDirectories_withOutputs hwritable
    exact hnot (hsame.symm.writable ((read_eq_ok_iff ..).mp (hread file hfile)).1)
  | @written t₁ _ hwritable =>
    refine iff_of_true rfl fun file hfile => ?_
    refine read_withOutputs_of_mem hwritable hfile fun other hother heq => ?_
    rw [List.inj_on_of_nodup_map (hnodup t₁) hother hfile heq]

end Writes

lemma files?_ne_nil {m : Model} {stem : String} {files : List OutputFile}
    (h : m.files? stem = some files) : files ≠ [] := by
  have hnames := m.names_of_files? h
  rintro rfl
  cases htarget : m.target <;> simp [htarget, Target.endings] at hnames

/-- Generating the files of a model ends as writing them does. -/
theorem ends_generate {m : Model} {stem : String} {files : List OutputFile}
    (h : m.files? stem = some files) (directory : String) (t : FileTree) :
    ∃ result t', Writes directory (FilePath.around (FilePath.join directory stem)) files t result t' ∧
      (generate m stem directory).Ends t (result.map fun _ => ⟨files.length, m.classCount⟩) t' := by
  obtain ⟨result, t', hends, hwrites⟩ :=
    ends_outputs (files?_ne_nil h) (m.beside_of_files? h directory) t
  refine ⟨result, t', hwrites, ?_⟩
  rw [generate, h]
  cases result with
  | error e => exact hends.bind_error
  | ok _ => exact hends.bind (ends_pure _ _)

end Session

end BeanForge
