import BeanForge.Proofs.Files.Changes
/-!
# Steps of a session

A session that works on a file tree, seen from outside: begun on a tree, it ends with a result and
leaves a tree. What was logged before plays no part. The rules follow the way in which sessions
are put together.
-/
namespace BeanForge.Session

variable {α β : Type}

/-- Begun on one tree, a step ends with a result and leaves another tree, whatever was logged
before. -/
def Ends (s : Session (StateM FileTree) α) (t : FileTree) (result : Except Failure α)
    (t' : FileTree) : Prop :=
  ∀ entries, ∃ entries', (s.run.run entries).run t = ((result, entries'), t')

section

variable {s : Session (StateM FileTree) α} {f : α → Session (StateM FileTree) β}
  {t t' t'' : FileTree}

/-- There is one way in which a step can end. -/
lemma Ends.unique {r r' : Except Failure α} (h : s.Ends t r t') (h' : s.Ends t r' t'') :
    r = r' ∧ t' = t'' := by
  obtain ⟨entries, hrun⟩ := h []
  obtain ⟨entries', hrun'⟩ := h' []
  rw [hrun] at hrun'
  cases hrun'
  exact ⟨rfl, rfl⟩

lemma ends_pure (a : α) (t : FileTree) : (pure a : Session (StateM FileTree) α).Ends t (.ok a) t :=
  fun entries => ⟨entries, rfl⟩

lemma ends_throw (e : Failure) (t : FileTree) :
    (throw e : Session (StateM FileTree) α).Ends t (.error e) t :=
  fun entries => ⟨entries, rfl⟩

lemma ends_log (level : Log.Level) (message : String) (values : List (String × String))
    (t : FileTree) :
    (log level message values : Session (StateM FileTree) Unit).Ends t (.ok ()) t :=
  fun entries => ⟨entries ++ [⟨level, message, values⟩], rfl⟩

lemma ends_store {step : StateM FileTree (Except FileError α)} {r : Except FileError α}
    (h : step.run t = (r, t')) (failure : FileError → Failure) :
    (store step failure).Ends t (r.mapError failure) t' := by
  intro entries
  refine ⟨entries, ?_⟩
  have hrun : ((store step failure).run.run entries).run t =
      (((step.run t).1.mapError failure, entries), (step.run t).2) := rfl
  rw [hrun, h]

lemma Ends.bind {a : α} {r : Except Failure β} (h : s.Ends t (.ok a) t')
    (h' : (f a).Ends t' r t'') : (s >>= f).Ends t r t'' := by
  intro entries
  obtain ⟨entries', hrun⟩ := h entries
  obtain ⟨entries'', hrun'⟩ := h' entries'
  refine ⟨entries'', ?_⟩
  rw [ExceptT.run_bind, StateT.run_bind, FileTree.run_bind_of_run hrun]
  exact hrun'

lemma Ends.bind_error {e : Failure} (h : s.Ends t (.error e) t') :
    (s >>= f).Ends t (.error e) t' := by
  intro entries
  obtain ⟨entries', hrun⟩ := h entries
  refine ⟨entries', ?_⟩
  rw [ExceptT.run_bind, StateT.run_bind, FileTree.run_bind_of_run hrun]
  rfl

/-- If two steps in a row succeed, so does each of them. -/
lemma Ends.of_bind (hs : ∃ r t', s.Ends t r t') (hf : ∀ a t', ∃ r t'', (f a).Ends t' r t'')
    {b : β} (h : (s >>= f).Ends t (.ok b) t'') :
    ∃ a t', s.Ends t (.ok a) t' ∧ (f a).Ends t' (.ok b) t'' := by
  obtain ⟨r, t', hfirst⟩ := hs
  cases r with
  | error e => cases (h.unique hfirst.bind_error).1
  | ok a =>
    obtain ⟨r, t₂, hsecond⟩ := hf a t'
    obtain ⟨rfl, rfl⟩ := h.unique (hfirst.bind hsecond)
    exact ⟨a, t', hfirst, hsecond⟩

end

end BeanForge.Session
