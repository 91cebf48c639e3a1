import BeanForge.Proofs.DecodePlan
import BeanForge.Proofs.Document.Acceptance
import Mathlib.Data.Set.Function
/-!
# Paths and their parts

A path and its parts say the same. Splitting gives objects and a key without slashes, from which the
path is put together again, and every choice of such objects and such a key is found by splitting
the path that they make. The two checks of a path's form are therefore checks of its parts: none of
them may be empty, and which check fails first is decided by whether the first object is.
-/
namespace BeanForge.JsonPath

open Declaration

/-- The path that leads through some objects to a key. -/
def ofParts (p : List String × String) : String :=
  Text.join "/" (p.1 ++ [p.2])

/-- Parts that can stand between slashes. -/
def SlashFree (p : List String × String) : Prop :=
  ∀ s ∈ p.1 ++ [p.2], '/' ∉ s.toList

lemma segments_eq (path : String) : segments path = (parts path).1 ++ [(parts path).2] := by
  rw [parts, List.getLastD_eq_getLast?, List.getLast?_eq_some_getLast (segments_ne_nil path),
    Option.getD_some, List.dropLast_append_getLast]

lemma slashFree_parts (path : String) : SlashFree (parts path) := by
  intro s hs
  rw [← segments_eq] at hs
  exact Text.not_mem_of_mem_split hs

/-- Nothing is lost by splitting. -/
theorem ofParts_parts (path : String) : ofParts (parts path) = path := by
  rw [ofParts, ← segments_eq]
  exact Text.join_split '/' path

lemma segments_join {pieces : List String} (hne : pieces ≠ [])
    (h : ∀ s ∈ pieces, '/' ∉ s.toList) : segments (Text.join "/" pieces) = pieces :=
  Text.split_join hne h

/-- Segments without slashes are found again. -/
lemma parts_join {pieces : List String} (hne : pieces ≠ [])
    (h : ∀ s ∈ pieces, '/' ∉ s.toList) :
    parts (Text.join "/" pieces) = (pieces.dropLast, pieces.getLast hne) := by
  rw [parts, segments_join hne h, List.getLastD_eq_getLast?, List.getLast?_eq_some_getLast hne,
    Option.getD_some]

theorem parts_ofParts {p : List String × String} (h : SlashFree p) : parts (ofParts p) = p := by
  have hfound := parts_join (List.append_ne_nil_of_right_ne_nil p.1 (List.cons_ne_nil p.2 [])) h
  rwa [List.dropLast_concat, List.getLast_concat] at hfound

/-- A path starts with a slash if its first object is empty. One without objects does not, even if
its key is empty. -/
lemma head?_ofParts {p : List String × String} (h : SlashFree p) :
    (ofParts p).toList.head? = some '/' ↔ p.1.head? = some "" := by
  obtain ⟨objects, key⟩ := p
  cases objects with
  | nil =>
    have hkey : '/' ∉ key.toList := h key (by simp)
    refine iff_of_false (fun hhead => hkey (List.mem_of_head? hhead)) (by simp)
  | cons s objects =>
    have hs : '/' ∉ s.toList := h s (by simp)
    obtain ⟨next, more, hmore⟩ := List.exists_cons_of_ne_nil
      (List.append_ne_nil_of_right_ne_nil objects (List.cons_ne_nil key []))
    have hpath : (ofParts (s :: objects, key)).toList =
        s.toList ++ '/' :: (Text.join "/" (next :: more)).toList := by
      rw [ofParts, List.cons_append, hmore, Text.join_cons_cons, String.toList_append,
        String.toList_append, List.append_assoc]
      rfl
    rw [hpath, List.head?_cons, Option.some.injEq, ← String.toList_eq_nil_iff]
    cases hchars : s.toList with
    | nil => simp
    | cons c cs =>
      rw [hchars] at hs
      have hc : c ≠ '/' := fun heq => hs (by simp [heq])
      simp [hc]

lemma head?_eq_slash_iff (path : String) :
    path.toList.head? = some '/' ↔ (parts path).1.head? = some "" := by
  have h := head?_ofParts (slashFree_parts path)
  rwa [ofParts_parts] at h

/-- Splitting and putting together are inverse to each other. -/
theorem invOn_parts : Set.InvOn ofParts parts Set.univ {p | SlashFree p} :=
  ⟨fun path _ => ofParts_parts path, fun _ h => parts_ofParts h⟩

/-- What becomes of a path that is there: its form is checked first, and its type last. -/
lemma checkPath_some (path type : String) :
    checkPath (some path) type =
      if "" ∈ (parts path).1 ++ [(parts path).2] then
        .error (if (parts path).1.head? = some "" then .leadingSlash else .emptySegment path)
      else if (TypeName.conversion? type).isSome then .ok path
      else .error (.notConvertible type) := by
  have hany : (segments path).any (·.isEmpty) = true ↔ "" ∈ segments path := by
    simp [List.any_eq_true]
  have hslash := head?_eq_slash_iff path
  have hpure : (pure path : Except Fault String) = .ok path := rfl
  rw [← segments_eq]
  simp only [checkPath, Option.elim_some, Fallible.ok_bind, Fallible.error_bind, hany, hslash,
    hpure]
  by_cases hhead : (parts path).1.head? = some ""
  · have hempty := empty_mem_segments_of_slash (hslash.mpr hhead)
    simp [hhead, hempty]
  · cases TypeName.conversion? type <;> simp [hhead]

/-- A path has a good form if none of its parts is empty. -/
lemma goodForm_iff (path type : String) :
    (checkPath (some path) type ≠ .error .leadingSlash ∧
      ∀ p, checkPath (some path) type ≠ .error (.emptySegment p)) ↔
        "" ∉ (parts path).1 ++ [(parts path).2] := by
  rw [checkPath_some]
  by_cases hempty : "" ∈ (parts path).1 ++ [(parts path).2]
  · refine iff_of_false ?_ (not_not_intro hempty)
    rw [if_pos hempty]
    split <;> simp
  · refine iff_of_true ?_ hempty
    rw [if_neg hempty]
    split <;> simp

/-- Paths and their parts correspond to each other one by one, and rooting a path adds the document
to its objects. The checks of a path's form let it pass exactly if none of its parts is empty, and
then its type decides. -/
theorem parts_bijective (path : String) :
    Text.join "/" ((parts path).1 ++ [(parts path).2]) = path ∧
    (∀ s ∈ (parts path).1 ++ [(parts path).2], '/' ∉ s.toList) ∧
    (∀ segments (hne : segments ≠ []), (∀ s ∈ segments, '/' ∉ s.toList) →
      parts (Text.join "/" segments) = (segments.dropLast, segments.getLast hne)) ∧
    Set.BijOn parts Set.univ {p | ∀ s ∈ p.1 ++ [p.2], '/' ∉ s.toList} ∧
    rooted path = ("root" :: (parts path).1, (parts path).2) ∧
    ∀ type,
      ((checkPath (some path) type ≠ .error .leadingSlash ∧
        ∀ p, checkPath (some path) type ≠ .error (.emptySegment p)) ↔
          ∀ s ∈ (parts path).1 ++ [(parts path).2], s ≠ "") ∧
      ((∀ s ∈ (parts path).1 ++ [(parts path).2], s ≠ "") →
        checkPath (some path) type =
          if (TypeName.conversion? type).isSome then .ok path
          else .error (.notConvertible type)) := by
  have hbij : Set.BijOn parts Set.univ {p | SlashFree p} :=
    invOn_parts.bijOn (fun path _ => slashFree_parts path) (Set.mapsTo_univ _ _)
  have hnonempty : (∀ s ∈ (parts path).1 ++ [(parts path).2], s ≠ "") ↔
      "" ∉ (parts path).1 ++ [(parts path).2] :=
    ⟨fun h hmem => h "" hmem rfl, fun h s hs heq => h (heq ▸ hs)⟩
  refine ⟨ofParts_parts path, slashFree_parts path, fun _ => parts_join, hbij, rooted_eq path,
    fun type => ⟨(goodForm_iff path type).trans hnonempty.symm, fun h => ?_⟩⟩
  rw [checkPath_some, if_neg (hnonempty.mp h)]

/-- Empty segments are found again at both ends of a path and inside it, and a path without them
passes the checks. -/
theorem parts_bijective_hall :
    (∀ s ∈ ["", "hall", "", ""], '/' ∉ s.toList) ∧
    parts "/hall//" = (["", "hall", ""], "") ∧
    (∀ s ∈ (parts "hall/lamp").1 ++ [(parts "hall/lamp").2], s ≠ "") ∧
    checkPath (some "hall/lamp") "int" = .ok "hall/lamp" :=
  have hfree : ∀ s ∈ ["", "hall", "", ""], '/' ∉ s.toList := by decide
  have hfull : ∀ s ∈ (parts "hall/lamp").1 ++ [(parts "hall/lamp").2], s ≠ "" := by decide
  ⟨hfree, (parts_bijective "/hall//").2.2.1 ["", "hall", "", ""] (List.cons_ne_nil _ _) hfree,
    hfull, ((parts_bijective "hall/lamp").2.2.2.2.2 "int").2 hfull⟩

end BeanForge.JsonPath
