import BeanForge.CommandLine
import BeanForge.Proofs.Decoder.Completeness
import BeanForge.Proofs.Files.Independence
/-!
# Runs of the program

What the outside sees of an accepted invocation: the exit code, what is printed, and the files
afterwards. Everything that can be wrong with the input is found before the first file is
touched, so a run that gets that far can only fail on the directory that it writes into.
-/
namespace BeanForge

namespace FileTree

/-- The document in a file, if it can be read and is one. -/
def document? (t : FileTree) (path : String) : Option Document := do
  let bytes ← (t.read path).toOption
  let text ← String.fromUTF8? bytes
  Document.ofYaml? text

/-- The schema in a file, if there is one and it is valid for a target. -/
def schema? (t : FileTree) (path : String) (target : Target) : Option Schema := do
  let document ← t.document? path
  (document.check target).toOption

/-- The path of a file has a stem. -/
theorem Writable.exists_stem {t : FileTree} {path : String} (h : t.Writable path) :
    ∃ stem, FilePath.stem? path = some stem := by
  obtain ⟨outer, last, hsplit, hlast⟩ := FilePath.exists_last_segment h.fits.nonempty h.noSlash
  obtain ⟨name, hname, _⟩ := h.name
  have hnames : FilePath.names path = outer.filter (· != "") ++ [last] := by
    simp [FilePath.names, hsplit, hlast]
  obtain rfl : last = name := by
    have hfound := hname.last
    rw [hnames, List.getLast?_concat] at hfound
    exact Option.some.inj hfound
  have hidle : FilePath.isIdle last = false := by simp [FilePath.isIdle, hlast, hname.notDot]
  have htrimmed : (FilePath.trimmed (FilePath.segments path)).head? = some last := by
    rw [FilePath.segments, hsplit, List.reverse_append, List.reverse_singleton]
    cases outer.reverse <;> simp [FilePath.trimmed, hidle]
  obtain ⟨rest, hrest⟩ := List.head?_eq_some_iff.mp htrimmed
  exact ⟨_, by simp [FilePath.stem?, FilePath.fileName?, hrest, hidle, hname.notDots]; rfl⟩

end FileTree

namespace Session

open FileTree

/-- Loading a document succeeds if there is one, and leaves the files alone in any case. -/
lemma ends_loadDocument (t : FileTree) (path : String) :
    ∃ result, (loadDocument path).Ends t result t ∧ result.toOption = t.document? path := by
  have hrun : (FileStore.read path : StateM FileTree (Except FileError ByteArray)).run t =
      (t.read path, t) := rfl
  have hstore := ends_store hrun (.unreadable path)
  rw [document?]
  cases hread : t.read path with
  | error e =>
    rw [hread] at hstore
    exact ⟨_, hstore.bind_error, rfl⟩
  | ok bytes =>
    rw [hread] at hstore
    cases htext : String.fromUTF8? bytes with
    | none =>
      refine ⟨.error (.unreadable path .notUtf8), hstore.bind ?_, by simp [htext, Except.toOption]⟩
      simp only [htext]
      exact ends_throw _ t
    | some text =>
      cases hdocument : Document.ofYaml? text with
      | none =>
        refine ⟨.error .notADocument, hstore.bind ?_, by simp [htext, hdocument, Except.toOption]⟩
        simp only [htext, hdocument]
        exact ends_throw _ t
      | some document =>
        refine ⟨.ok document, hstore.bind ?_, by simp [htext, hdocument, Except.toOption]⟩
        simp only [htext, hdocument]
        exact (ends_log _ _ _ t).bind (ends_pure document t)

lemma ends_checkDocument (t : FileTree) (document : Document) (target : Target) :
    ∃ result, (checkDocument document target).Ends t result t ∧
      result.toOption = (document.check target).toOption := by
  cases hcheck : document.check target with
  | error rejection =>
    refine ⟨.error (.rejected rejection), ?_, rfl⟩
    rw [checkDocument, hcheck]
    exact ends_throw _ t
  | ok schema =>
    refine ⟨.ok schema, ?_, rfl⟩
    rw [checkDocument, hcheck]
    exact (ends_log _ _ _ t).bind (ends_pure schema t)

lemma ends_buildModel (t : FileTree) (schema : Schema) (target : Target) :
    (buildModel schema target).Ends t (.ok (schema.model target)) t :=
  (ends_log _ _ _ t).bind (ends_pure _ t)

end Session

/-- A model made from a schema has its two files. -/
lemma Schema.exists_header_source (s : Schema) (target : Target) (stem : String) :
    ∃ header source, (s.model target).files? stem = some [header, source] := by
  cases target with
  | bean => exact ⟨_, _, rfl⟩
  | qtbean => exact ⟨_, _, rfl⟩
  | factory => exact Decoder.exists_files?_of_complete s.complete_model stem

namespace CommandLine

open FileTree Session

section

variable {r : Request} {schema : Schema} {t t' : FileTree}

/-- Without a valid schema nothing is done. -/
lemma ends_perform_of_none (h : t.schema? r.input r.target = none) :
    ∃ e, (perform r).Ends t (.error e) t := by
  obtain ⟨loaded, hload, hdocument⟩ := ends_loadDocument t r.input
  rw [schema?, ← hdocument] at h
  cases loaded with
  | error e => exact ⟨e, (ends_log _ _ _ t).bind hload.bind_error⟩
  | ok document =>
    obtain ⟨checked, hcheck, hschema⟩ := ends_checkDocument t document r.target
    cases checked with
    | error e => exact ⟨e, (ends_log _ _ _ t).bind (hload.bind hcheck.bind_error)⟩
    | ok schema =>
      rw [Except.toOption, Option.bind_eq_bind, Option.bind_some, ← hschema] at h
      contradiction

/-- With a valid schema the outcome is decided by what is done with its model. -/
lemma ends_perform_of_some (h : t.schema? r.input r.target = some schema)
    {result : Except Failure String}
    (hrest : ∀ beanName, Ends (if r.emitModel then
        pure (Text.line (schema.model r.target).emit) else do
      let summary ← generate (schema.model r.target) (r.fileStem beanName) r.output
      log .info "done"
        [("target", r.target.text), ("files", toString summary.files),
          ("classes", toString summary.classes)]
      return "") t result t') :
    (perform r).Ends t result t' := by
  obtain ⟨loaded, hload, hdocument⟩ := ends_loadDocument t r.input
  rw [schema?, ← hdocument] at h
  cases loaded with
  | error e => contradiction
  | ok document =>
    obtain ⟨checked, hcheck, hschema⟩ := ends_checkDocument t document r.target
    cases checked with
    | error e =>
      rw [Except.toOption, Option.bind_eq_bind, Option.bind_some, ← hschema] at h
      contradiction
    | ok schema' =>
      rw [Except.toOption, Option.bind_eq_bind, Option.bind_some, ← hschema] at h
      cases h
      exact (ends_log _ _ _ t).bind
        (hload.bind (hcheck.bind ((ends_buildModel t schema r.target).bind (hrest document.name))))

lemma ends_perform_of_emitModel (h : t.schema? r.input r.target = some schema)
    (hemit : r.emitModel = true) :
    (perform r).Ends t (.ok (Text.line (schema.model r.target).emit)) t := by
  refine ends_perform_of_some h fun beanName => ?_
  rw [if_pos hemit]
  exact ends_pure _ t

lemma ends_perform_of_generate (h : t.schema? r.input r.target = some schema)
    (hemit : r.emitModel = false) {result : Except Failure Summary}
    {stem : String} (hstem : ∀ beanName, r.fileStem beanName = stem)
    (hgenerate : (generate (schema.model r.target) stem r.output).Ends t result t') :
    (perform r).Ends t (result.map fun _ => "") t' := by
  refine ends_perform_of_some h fun beanName => ?_
  rw [if_neg (by simp [hemit]), hstem]
  cases result with
  | error e => exact hgenerate.bind_error
  | ok summary => exact hgenerate.bind ((ends_log _ _ _ t').bind (ends_pure _ t'))

end

/-- The name of the bean plays no part, as an input that holds a schema has a stem. -/
theorem exists_fileStem {r : Request} {schema : Schema} {t : FileTree}
    (h : t.schema? r.input r.target = some schema) :
    ∃ stem, FilePath.stem? r.input = some stem ∧
      ∀ beanName, r.fileStem beanName = r.stem.getD stem := by
  obtain ⟨document, hdocument, _⟩ := Option.bind_eq_some_iff.mp h
  obtain ⟨bytes, hread, _⟩ := Option.bind_eq_some_iff.mp hdocument
  have hfile : t.read r.input = .ok bytes := by
    cases hcases : t.read r.input <;> simp_all [Except.toOption]
  obtain ⟨stem, hstem⟩ := ((read_eq_ok_iff ..).mp hfile).1.exists_stem
  exact ⟨stem, hstem, fun beanName => by rw [Request.fileStem, hstem]; rfl⟩

/-- A run on a file tree: what it shows, and the tree that it leaves. -/
def runOn (env : Environment) (args : List String) (t : FileTree) : Outcome × FileTree :=
  (run env args : StateM FileTree Outcome).run t

/-- A run shows how the session ended. -/
lemma runOn_of_ends {env : Environment} {args : List String} {r : Request}
    (hparse : parse env args = .request r) {t t' : FileTree} {result : Except Failure String}
    (h : (perform r).Ends t result t') :
    ∃ errors, runOn env args t =
      (⟨if result.isOk then 0 else 1, result.toOption.getD "", errors⟩, t') := by
  obtain ⟨entries, hrun⟩ := h []
  rw [runOn, run, hparse]
  simp only [run_bind_of_run hrun]
  cases result <;> exact ⟨_, rfl⟩

/-- A run without a valid schema fails and one that only asks for the model prints it, and neither
touches a file. Every other run prints nothing, succeeds exactly if both files are there with their
contents afterwards, and changes nothing else, but for directories that were missing on the way. -/
theorem run_of_request {env : Environment} {args : List String} {r : Request}
    (hparse : parse env args = .request r) (before : FileTree) :
    (before.schema? r.input r.target = none →
      ∃ errors, runOn env args before = (⟨1, "", errors⟩, before)) ∧
    (∀ schema, before.schema? r.input r.target = some schema →
      (r.emitModel = true → ∃ errors,
        runOn env args before = (⟨0, (schema.model r.target).emit ++ "\n", errors⟩, before)) ∧
      (r.emitModel = false → ∃ stem header source code errors after,
        FilePath.stem? r.input = some stem ∧
        (schema.model r.target).files? (r.stem.getD stem) = some [header, source] ∧
        runOn env args before = (⟨code, "", errors⟩, after) ∧
        (code = 0 ∨ code = 1) ∧
        (code = 0 ↔ ∀ file ∈ [header, source],
          after.read (FilePath.join r.output file.name) = .ok file.contents.toUTF8) ∧
        ChangedAtMost ([header, source].map fun file => FilePath.join r.output file.name)
          before after)) := by
  refine ⟨fun hnone => ?_, fun schema hschema => ⟨fun hemit => ?_, fun hemit => ?_⟩⟩
  · obtain ⟨e, hends⟩ := ends_perform_of_none hnone
    exact runOn_of_ends hparse hends
  · exact runOn_of_ends hparse (ends_perform_of_emitModel hschema hemit)
  · obtain ⟨stem, hinput, hstem⟩ := exists_fileStem hschema
    obtain ⟨header, source, hfiles⟩ := schema.exists_header_source r.target (r.stem.getD stem)
    obtain ⟨result, after, hwrites, hgenerate⟩ := ends_generate hfiles r.output before
    have hends := ends_perform_of_generate hschema hemit hstem hgenerate
    obtain ⟨errors, hrun⟩ := runOn_of_ends hparse hends
    have hbeside := Model.beside_of_files? hfiles r.output
    have hchanged := hwrites.changedAtMost (List.cons_ne_nil _ _) hbeside
    have hfound := hwrites.eq_ok_iff (List.cons_ne_nil _ _) hbeside
      (nodup_places_of_files? hfiles r.output)
    cases result with
    | error f =>
      exact ⟨stem, header, source, 1, errors, after, hinput, hfiles, hrun, .inr rfl,
        iff_of_false (by decide) (fun h => nomatch hfound.mpr h), hchanged⟩
    | ok _ =>
      exact ⟨stem, header, source, 0, errors, after, hinput, hfiles, hrun, .inl rfl,
        iff_of_true rfl (hfound.mp rfl), hchanged⟩

def pairTree : FileTree :=
  ⟨[(["pair.yaml"], .file (Text.lines
    ["name: Pair", "module: app", "source: json", "properties:", "  - name: left", "    type: int",
      "    access: r", "    json_path: left"]).toUTF8)], []⟩

/-- A run on a missing file, one that prints a model, and one that writes files. -/
theorem run_of_request_pair :
    (∃ errors, runOn {} ["bean", "other.yaml", "out"] pairTree = (⟨1, "", errors⟩, pairTree)) ∧
    ∃ schema, pairTree.schema? "pair.yaml" .factory = some schema ∧
      (∃ errors, runOn {} ["factory", "pair.yaml", "out", "--emit-ir"] pairTree =
        (⟨0, (schema.model .factory).emit ++ "\n", errors⟩, pairTree)) ∧
      ∃ header source errors after,
        (schema.model .factory).files? "pair" = some [header, source] ∧
        runOn {} ["factory", "pair.yaml", "out"] pairTree = (⟨0, "", errors⟩, after) ∧
        ∀ file ∈ [header, source],
          after.read (FilePath.join "out" file.name) = .ok file.contents.toUTF8 := by
  have hmissing : parse {} ["bean", "other.yaml", "out"] =
      .request ⟨.bean, "other.yaml", "out", none, false, false⟩ := by decide +kernel
  have hemit : parse {} ["factory", "pair.yaml", "out", "--emit-ir"] =
      .request ⟨.factory, "pair.yaml", "out", none, true, false⟩ := by decide +kernel
  have hwrite : parse {} ["factory", "pair.yaml", "out"] =
      .request ⟨.factory, "pair.yaml", "out", none, false, false⟩ := by decide +kernel
  have hvalid : (pairTree.schema? "pair.yaml" .factory).isSome := by decide +kernel
  obtain ⟨schema, hschema⟩ := Option.isSome_iff_exists.mp hvalid
  obtain ⟨stem, header, source, code, errors, after, hstem, hfiles, hrun, _, hwritten, _⟩ :=
    ((run_of_request hwrite pairTree).2 schema hschema).2 rfl
  obtain rfl : "pair" = stem := Option.some.inj hstem
  have hcode : code = 0 := by
    have hensure : pairTree.ensure (FilePath.around (FilePath.join "out" "pair")) =
        (.ok (), ⟨(["out"], .directory) :: pairTree.entries, []⟩) := rfl
    have hfitting : Fitting ⟨(["out"], .directory) :: pairTree.entries, []⟩ "pair" "out"
        (schema.model .factory) :=
      fitting_of_write ((Decoder.files?_isSome_iff _ "pair").mpr schema.complete_model)
        (List.forall_mem_cons.mpr ⟨⟨_, rfl⟩, List.forall_mem_singleton.mpr ⟨_, rfl⟩⟩)
    obtain ⟨summary, hgenerate⟩ := ends_generate_of_fitting hensure hfitting
    let r : Request := ⟨.factory, "pair.yaml", "out", none, false, false⟩
    have hends := ends_perform_of_generate (r := r) hschema rfl
      (fun _ => by rw [Request.fileStem, hstem]; rfl) hgenerate
    obtain ⟨_, hok⟩ := runOn_of_ends hwrite hends
    exact congrArg (·.1.exitCode) (hrun.symm.trans hok)
  subst hcode
  exact ⟨(run_of_request hmissing pairTree).1 rfl, schema, hschema,
    ((run_of_request hemit pairTree).2 schema hschema).1 rfl, header, source, errors, after, hfiles,
    hrun, hwritten.mp rfl⟩

end CommandLine

end BeanForge
