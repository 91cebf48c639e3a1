import BeanForge.Proofs.Files.Walking
import BeanForge.Session
/-!
# What operations change

Reading changes nothing, writing puts one file in its place, and making directories only adds
some on the way to a path. None of them takes a directory away, so what could be reached before
can be reached after.
-/
namespace BeanForge.FileTree

/-- One tree becomes the other by new directories at some places. -/
structure Grown (new : Place → Prop) (t t' : FileTree) : Prop where
  current : t'.current = t.current
  find? : ∀ place, t'.find? place = t.find? place ∨
    (t.find? place = none ∧ t'.find? place = some .directory ∧ new place)

/-- The same places are directories in both trees. -/
structure SameDirectories (t t' : FileTree) : Prop where
  current : t'.current = t.current
  find? : ∀ place, t'.find? place = some .directory ↔ t.find? place = some .directory

section

variable {t t' t'' : FileTree} {new : Place → Prop}

lemma start_congr (h : t'.current = t.current) (path : String) : t'.start path = t.start path := by
  rw [start, start, h]

lemma place_congr (h : t'.current = t.current) (path : String) : t'.place path = t.place path := by
  rw [place, place, start_congr h]

lemma Grown.refl (new : Place → Prop) (t : FileTree) : Grown new t t :=
  ⟨rfl, fun _ => .inl rfl⟩

lemma Grown.trans (h : Grown new t t') (h' : Grown new t' t'') : Grown new t t'' := by
  refine ⟨h'.current.trans h.current, fun place => ?_⟩
  rcases h.find? place with hsame | ⟨hnone, hdirectory, hnew⟩
  · exact hsame ▸ h'.find? place
  · rcases h'.find? place with hsame | ⟨hnone', _⟩
    · exact .inr ⟨hnone, hsame.trans hdirectory, hnew⟩
    · rw [hnone'] at hdirectory
      contradiction

lemma Grown.mono {more : Place → Prop} (h : Grown new t t') (hmore : ∀ place, new place → more place) :
    Grown more t t' :=
  ⟨h.current, fun place =>
    (h.find? place).imp_right fun ⟨hnone, hdirectory, hnew⟩ => ⟨hnone, hdirectory, hmore _ hnew⟩⟩

lemma Grown.kept (h : Grown new t t') {place : Place} (hfound : t.find? place = some .directory) :
    t'.find? place = some .directory := by
  rcases h.find? place with hsame | ⟨_, hdirectory, _⟩
  · rw [hsame, hfound]
  · exact hdirectory

lemma SameDirectories.refl (t : FileTree) : SameDirectories t t :=
  ⟨rfl, fun _ => Iff.rfl⟩

lemma SameDirectories.symm (h : SameDirectories t t') : SameDirectories t' t :=
  ⟨h.current.symm, fun place => (h.find? place).symm⟩

lemma SameDirectories.trans (h : SameDirectories t t') (h' : SameDirectories t' t'') :
    SameDirectories t t'' :=
  ⟨h'.current.trans h.current, fun place => (h'.find? place).trans (h.find? place)⟩

lemma SameDirectories.isDirectory (h : SameDirectories t t') {path : String}
    (hpath : t.isDirectory path) : t'.isDirectory path := by
  obtain ⟨hfits, hwalk⟩ := (isDirectory_iff t path).mp hpath
  refine (isDirectory_iff t' path).mpr ⟨hfits, ?_⟩
  rw [start_congr h.current]
  exact hwalk.mono fun place => (h.find? place).mpr

end

/-- Whether there can be a file at what a path leads to. -/
structure Writable (t : FileTree) (path : String) : Prop where
  fits : Fits path
  noSlash : FilePath.endsInSlash path = false
  name : ∃ name, LastName path name ∧ name.utf8ByteSize ≤ maxName
  walkable : t.Walkable (t.start path) (FilePath.names path).dropLast
  free : t.find? (t.place path) ≠ some .directory

lemma SameDirectories.writable {t t' : FileTree} (h : SameDirectories t t') {path : String}
    (hpath : t.Writable path) : t'.Writable path := by
  refine ⟨hpath.fits, hpath.noSlash, hpath.name, ?_, ?_⟩
  · rw [start_congr h.current]
    exact hpath.walkable.mono fun place => (h.find? place).mpr
  · rw [place_congr h.current, Ne, h.find?]
    exact hpath.free

lemma Writable.place_ne_nil {t : FileTree} {path : String} (h : t.Writable path) :
    t.place path ≠ [] := by
  obtain ⟨name, hname, _⟩ := h.name
  simp [hname.place_eq t]

/-- All directories that the path of a file passes are there. -/
lemma Writable.isDirectory {t : FileTree} {path outer : String} (h : t.Writable path)
    (houter : FilePath.OnWay outer path) : t.isDirectory outer := by
  obtain ⟨rest, hrest⟩ := houter.text
  have hpath : path = outer ++ String.ofList rest := by
    rw [← String.toList_inj, String.toList_append, String.toList_ofList, hrest]
  obtain ⟨more, hmore⟩ := houter.names
  refine (isDirectory_iff t outer).mpr ⟨⟨fun hmem => h.fits.noNul ?_, houter.nonempty, ?_⟩, ?_⟩
  · exact hrest ▸ List.mem_append_left _ hmem
  · have hshort := h.fits.short
    rw [hpath, String.utf8ByteSize_append] at hshort
    omega
  · have hwalk := h.walkable
    rw [← hmore, walkable_append_iff] at hwalk
    have hstart : t.start outer = t.start path := by rw [start, start, houter.isAbsolute_eq]
    exact hstart ▸ hwalk.1

lemma Writable.locate {t : FileTree} {path : String} (h : t.Writable path) :
    ∃ directory name, t.locate path = .ok (.named directory name) ∧
      t.lookIn directory name = .ok (t.find? (t.place path)) ∧
      directory ++ [name] = t.place path := by
  obtain ⟨name, hname, hshort⟩ := h.name
  refine ⟨_, name, (locate_eq_named_iff ..).mpr ⟨h.fits, hname, h.walkable, rfl⟩, ?_, ?_⟩
  · rw [lookIn_eq_ok_iff, hname.place_eq t]
    exact ⟨hshort, rfl⟩
  · exact (hname.place_eq t).symm

theorem write_of_writable {t : FileTree} {path : String} (h : t.Writable path)
    (bytes : ByteArray) : t.write path bytes = .ok (t.put (t.place path) (.file bytes)) := by
  obtain ⟨directory, name, hlocate, hlook, hplace⟩ := h.locate
  rw [write, hlocate, Fallible.ok_bind]
  simp only [h.noSlash, Bool.false_eq_true, if_false, hlook, Fallible.ok_bind, hplace]
  split
  · rename_i hfound
    exact absurd hfound h.free
  · rfl

lemma writable_of_locate {t : FileTree} {path name : String} {directory : Place}
    {found : Option FileEntry} (hlocate : t.locate path = .ok (.named directory name))
    (hslash : FilePath.endsInSlash path = false) (hlook : t.lookIn directory name = .ok found)
    (hfree : found ≠ some .directory) : t.Writable path ∧ found = t.find? (t.place path) := by
  obtain ⟨hfits, hname, hwalk, rfl⟩ := (locate_eq_named_iff ..).mp hlocate
  obtain ⟨hshort, rfl⟩ := (lookIn_eq_ok_iff ..).mp hlook
  rw [← hname.place_eq t] at hfree ⊢
  exact ⟨⟨hfits, hslash, ⟨name, hname, hshort⟩, hwalk, hfree⟩, rfl⟩

theorem writable_of_write {t t' : FileTree} {path : String} {bytes : ByteArray}
    (h : t.write path bytes = .ok t') : t.Writable path := by
  obtain ⟨location, hlocate, h⟩ := Fallible.bind_eq_ok_iff.mp h
  cases location with
  | reached directory => contradiction
  | named directory name =>
    obtain ⟨hslash, h⟩ := Fallible.guard_eq_ok_iff.mp h
    obtain ⟨found, hlook, h⟩ := Fallible.bind_eq_ok_iff.mp h
    refine (writable_of_locate hlocate (by simpa using hslash) hlook ?_).1
    rintro rfl
    contradiction

theorem read_eq_ok_iff (t : FileTree) (path : String) (bytes : ByteArray) :
    t.read path = .ok bytes ↔ t.Writable path ∧ t.find? (t.place path) = some (.file bytes) := by
  constructor
  · intro h
    obtain ⟨location, hlocate, h⟩ := Fallible.bind_eq_ok_iff.mp h
    cases location with
    | reached directory => contradiction
    | named directory name =>
      obtain ⟨found, hlook, h⟩ := Fallible.bind_eq_ok_iff.mp h
      match found, h with
      | some (.file bytes'), h =>
        obtain ⟨hslash, h⟩ := Fallible.guard_eq_ok_iff.mp h
        cases h
        have hpath := writable_of_locate hlocate (by simpa using hslash) hlook (by simp)
        exact ⟨hpath.1, hpath.2.symm⟩
  · rintro ⟨hpath, hfound⟩
    obtain ⟨directory, name, hlocate, hlook, _⟩ := hpath.locate
    rw [read, hlocate, Fallible.ok_bind]
    simp [hlook, hfound, hpath.noSlash, Fallible.ok_bind]

/-- Writing takes no directory away and makes none. -/
lemma Writable.sameDirectories_put {t : FileTree} {path : String} (h : t.Writable path)
    (bytes : ByteArray) : SameDirectories t (t.put (t.place path) (.file bytes)) := by
  refine ⟨rfl, fun place => ?_⟩
  rw [find?_put _ _ _ _ h.place_ne_nil]
  split
  · rename_i heq
    simpa [heq] using h.free
  · rfl

/-- A new directory stands where nothing stood before. -/
theorem grown_makeDirectory {t t' : FileTree} {path : String}
    (h : t.makeDirectory path = .ok t') :
    Grown (· = t.place path) t t' ∧ t'.isDirectory path := by
  obtain ⟨location, hlocate, h⟩ := Fallible.bind_eq_ok_iff.mp h
  cases location with
  | reached directory => contradiction
  | named directory name =>
    obtain ⟨found, hlook, h⟩ := Fallible.bind_eq_ok_iff.mp h
    match found, h with
    | none, h =>
      cases h
      obtain ⟨hfits, hname, hwalk, rfl⟩ := (locate_eq_named_iff ..).mp hlocate
      obtain ⟨hshort, hnone⟩ := (lookIn_eq_ok_iff ..).mp hlook
      rw [← hname.place_eq t] at hnone ⊢
      have hne : t.place path ≠ [] := by simp [hname.place_eq t]
      have hfind := fun place => find?_put t (t.place path) place .directory hne
      have hgrown : Grown (· = t.place path) t (t.put (t.place path) .directory) := by
        refine ⟨rfl, fun place => ?_⟩
        rw [hfind]
        split
        · rename_i heq
          exact .inr ⟨heq ▸ hnone.symm, rfl, heq⟩
        · exact .inl rfl
      refine ⟨hgrown, (isDirectory_iff ..).mpr ⟨hfits, ?_⟩⟩
      rw [hname.names_eq, walkable_append_iff]
      refine ⟨hwalk.mono fun place => hgrown.kept, .inr (.inr ⟨hshort, ?_⟩), trivial⟩
      have hplace := hname.place_eq t
      rw [start_congr hgrown.current, ← hplace, hfind, if_pos rfl]

theorem makeDirectory_of_isDirectory {t : FileTree} {path : String} (h : t.isDirectory path) :
    t.makeDirectory path = .error .alreadyExists := by
  rw [isDirectory] at h
  rw [makeDirectory]
  split at h
  · rename_i hlocate
    rw [hlocate]
    rfl
  · rename_i hlocate
    split at h
    · rename_i hlook
      rw [hlocate, Fallible.ok_bind]
      simp only [hlook]
      rfl
    · contradiction
  · contradiction

/-- How making several directories, each in the next one, ends on a tree. -/
def makeAll (t : FileTree) (paths : List String) : Except FileError Unit × FileTree :=
  (makeDirectories paths : StateM FileTree (Except FileError Unit)).run t

lemma run_bind_of_run {σ α β : Type} {x : StateM σ α} {f : α → StateM σ β} {s s' : σ} {a : α}
    (h : x.run s = (a, s')) : (x >>= f).run s = (f a).run s' := by
  rw [StateT.run_bind, h]
  rfl

lemma run_makeDirectory (t : FileTree) (path : String) :
    (FileStore.makeDirectory path : StateM FileTree (Except FileError Unit)).run t =
      match t.makeDirectory path with
      | .ok t' => (.ok (), t')
      | .error e => (.error e, t) := by
  cases h : t.makeDirectory path <;> simp [FileStore.makeDirectory, StateT.run, attempt, h]

lemma run_write (t : FileTree) (path : String) (bytes : ByteArray) :
    (FileStore.write path bytes : StateM FileTree (Except FileError Unit)).run t =
      match t.write path bytes with
      | .ok t' => (.ok (), t')
      | .error e => (.error e, t) := by
  cases h : t.write path bytes <;> simp [FileStore.write, StateT.run, attempt, h]

lemma makeAll_cons (t : FileTree) (path : String) (outer : List String) :
    t.makeAll (path :: outer) =
      match t.makeDirectory path with
      | .ok t' => (.ok (), t')
      | .error .notFound =>
        match t.makeAll outer with
        | (.error e, t') => (.error e, t')
        | (.ok (), t') =>
          match t'.makeDirectory path with
          | .ok t'' => (.ok (), t'')
          | .error e => (if t'.isDirectory path then .ok () else .error e, t')
      | .error e => (if t.isDirectory path then .ok () else .error e, t) := by
  have hstep := run_makeDirectory t path
  rw [makeAll, makeDirectories]
  cases h : t.makeDirectory path with
  | ok t' =>
    rw [h] at hstep
    rw [run_bind_of_run hstep]
    rfl
  | error e =>
    rw [h] at hstep
    rw [run_bind_of_run hstep]
    cases e with
    | notFound =>
      rcases hall : t.makeAll outer with ⟨result, t'⟩
      have hstep' := run_makeDirectory t' path
      simp only [run_bind_of_run hall]
      cases result with
      | error e => rfl
      | ok _ =>
        cases h' : t'.makeDirectory path with
        | ok t'' =>
          rw [h'] at hstep'
          simp only [run_bind_of_run hstep', h']
          rfl
        | error e =>
          rw [h'] at hstep'
          simp only [run_bind_of_run hstep', h']
          rfl
    | _ => rfl

/-- What making several directories, each in the next one, achieves: nothing but some of them is
new, the first is there if all went well, and otherwise one of them is missing. -/
structure Made (paths : List String) (t : FileTree) (result : Except FileError Unit)
    (t' : FileTree) : Prop where
  grown : Grown (fun place => ∃ path ∈ paths, place = t.place path) t t'
  first : result = .ok () → ∀ path ∈ paths.head?, t'.isDirectory path
  missing : ∀ e, result = .error e → ∃ path ∈ paths, ¬ t'.isDirectory path

lemma made_unless (t : FileTree) (path : String) (outer : List String) (e : FileError) :
    Made (path :: outer) t (if t.isDirectory path then .ok () else .error e) t := by
  refine ⟨.refl _ t, fun h => ?_, fun e' h => ⟨path, List.mem_cons_self, ?_⟩⟩
  · by_cases hpath : t.isDirectory path
    · simpa using hpath
    · simp [hpath] at h
  · intro hpath
    simp [hpath] at h

lemma made_of_ok {t t' : FileTree} {path : String} (h : t.makeDirectory path = .ok t')
    (outer : List String) : Made (path :: outer) t (.ok ()) t' := by
  obtain ⟨hgrown, hdirectory⟩ := grown_makeDirectory h
  refine ⟨hgrown.mono ?_, fun _ => by simpa using hdirectory, nofun⟩
  rintro place rfl
  exact ⟨path, List.mem_cons_self, rfl⟩

lemma Made.of_outer {path : String} {outer : List String} {t t' : FileTree} {e : FileError}
    (h : Made outer t (.error e) t') : Made (path :: outer) t (.error e) t' := by
  obtain ⟨q, hq, hmissing⟩ := h.missing e rfl
  refine ⟨h.grown.mono ?_, nofun, fun _ _ => ⟨q, List.mem_cons_of_mem _ hq, hmissing⟩⟩
  rintro place ⟨q, hq, rfl⟩
  exact ⟨q, List.mem_cons_of_mem _ hq, rfl⟩

/-- What was made before another attempt counts as made with it. -/
lemma Made.after {path : String} {outer : List String} {t t' t'' : FileTree}
    {result result' : Except FileError Unit} (h : Made outer t result t')
    (h' : Made (path :: outer) t' result' t'') : Made (path :: outer) t result' t'' := by
  have hplace := place_congr h.grown.current
  refine ⟨(h.grown.mono ?_).trans (h'.grown.mono ?_), h'.first, h'.missing⟩
  · rintro place ⟨q, hq, rfl⟩
    exact ⟨q, List.mem_cons_of_mem _ hq, rfl⟩
  · rintro place ⟨q, hq, rfl⟩
    exact ⟨q, hq, hplace q⟩

theorem made_makeAll (paths : List String) (t : FileTree) :
    Made paths t (t.makeAll paths).1 (t.makeAll paths).2 := by
  induction paths generalizing t with
  | nil => exact ⟨.refl _ t, by simp, nofun⟩
  | cons path outer ih =>
    rw [makeAll_cons]
    cases h : t.makeDirectory path with
    | ok t' => exact made_of_ok h outer
    | error e =>
      cases e with
      | notFound =>
        have houter := ih t
        rcases hall : t.makeAll outer with ⟨result, t'⟩
        rw [hall] at houter
        cases result with
        | error e => exact houter.of_outer
        | ok _ =>
          cases h' : t'.makeDirectory path with
          | ok t'' =>
            simp only [h']
            exact houter.after (made_of_ok h' outer)
          | error e =>
            simp only [h']
            exact houter.after (made_unless t' path outer e)
      | _ => exact made_unless t path outer _

/-- How making a directory and those around it ends on a tree. -/
def ensure (t : FileTree) (path : String) : Except FileError Unit × FileTree :=
  (ensureDirectory path : StateM FileTree (Except FileError Unit)).run t

/-- Whether a directory is there; the current one, which the empty path stands for, always is. -/
def Ready (t : FileTree) (path : String) : Prop :=
  path = "" ∨ t.isDirectory path

lemma SameDirectories.ready {t t' : FileTree} (h : SameDirectories t t') {path : String}
    (hpath : t.Ready path) : t'.Ready path :=
  hpath.imp_right h.isDirectory

lemma ensure_eq (t : FileTree) (path : String) :
    t.ensure path = t.makeAll (FilePath.ancestors path) := rfl

theorem ensure_of_ready {t : FileTree} {path : String} (h : t.Ready path) :
    t.ensure path = (.ok (), t) := by
  rw [ensure_eq]
  rcases h with rfl | hdirectory
  · rfl
  · have hne : path ≠ "" := ((isDirectory_iff t path).mp hdirectory).1.nonempty
    rw [FilePath.ancestors, if_neg (by simpa using hne), makeAll_cons,
      makeDirectory_of_isDirectory hdirectory]
    simp [hdirectory]

theorem ready_of_ensure {t t' : FileTree} {path : String} (h : t.ensure path = (.ok (), t')) :
    t'.Ready path := by
  have hmade := made_makeAll (FilePath.ancestors path) t
  rw [← ensure_eq, h] at hmade
  by_cases hne : path = ""
  · exact .inl hne
  · exact .inr (hmade.first rfl path (by simp [FilePath.ancestors, hne]))

end BeanForge.FileTree
