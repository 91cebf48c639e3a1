import BeanForge.FilePath
import Mathlib.Data.List.Infix
/-!
# Paths of generated files

A generated file is named after a base by an ending without a slash. The directory around it then
depends on the base alone, and that directory and those around it are named on the way to the
file: their paths are beginnings of the file's path, name by name and as texts.
-/
namespace BeanForge.FilePath

/-- An ending makes every name into that of a file. -/
structure IsEnding (ending : String) : Prop where
  noSlash : '/' ∉ ending.toList
  notDots : ∃ c ∈ ending.toList, c ≠ '.'

/-- The segments of a path before the last one, last first. -/
def outer (base : String) : List String :=
  (Text.split '/' base).dropLast.reverse

/-- The last segment of a path. -/
def innermost (base : String) : String :=
  (Text.split '/' base).getLastD ""

/-- The directory around what a base and an ending name. -/
def around (base : String) : String :=
  if outer base = [] then "" else ofSegments (trimmed (outer base))

section Ending

variable {ending : String} (h : IsEnding ending)

include h

lemma IsEnding.append_ne (name : String) :
    name ++ ending ≠ "" ∧ name ++ ending ≠ "." ∧ name ++ ending ≠ ".." := by
  obtain ⟨c, hc, hdot⟩ := h.notDots
  have hmem : c ∈ (name ++ ending).toList := by simp [hc]
  refine ⟨?_, ?_, ?_⟩ <;> intro heq <;> rw [heq] at hmem <;> simp_all

lemma segments_append (base : String) :
    segments (base ++ ending) = (innermost base ++ ending) :: outer base := by
  simp [segments, outer, innermost, Text.split_append h.noSlash]

lemma trimmed_segments_append (base : String) :
    trimmed (segments (base ++ ending)) = segments (base ++ ending) := by
  obtain ⟨hempty, hdot, _⟩ := h.append_ne (innermost base)
  rw [segments_append h]
  cases outer base with
  | nil => rfl
  | cons s rest => simp [trimmed, isIdle, hempty, hdot]

theorem parent?_append (base : String) : parent? (base ++ ending) = some (around base) := by
  obtain ⟨hempty, _⟩ := h.append_ne (innermost base)
  rw [parent?, trimmed_segments_append h, segments_append h, around]
  cases outer base with
  | nil => simp [hempty]
  | cons s rest => simp

theorem names_append (base : String) :
    names (base ++ ending) =
      (outer base).reverse.filter (· != "") ++ [innermost base ++ ending] := by
  obtain ⟨hempty, _⟩ := h.append_ne (innermost base)
  have hkept : [innermost base ++ ending].filter (· != "") = [innermost base ++ ending] := by
    simpa using hempty
  rw [names, Text.split_append h.noSlash, ← innermost, List.filter_append, hkept, outer,
    List.reverse_reverse]

lemma isAbsolute_append (base : String) : isAbsolute (base ++ ending) = isAbsolute base := by
  obtain ⟨c, hc, _⟩ := h.notDots
  obtain ⟨d, cs, hcs⟩ := List.exists_cons_of_ne_nil (List.ne_nil_of_mem hc)
  have hd : d ≠ '/' := fun heq => h.noSlash (by simp [hcs, heq])
  rw [isAbsolute, isAbsolute, String.toList_append, hcs]
  cases base.toList <;> simp [hd]

/-- Joining a directory and an ending to a stem can be done in either order. -/
theorem join_append (directory stem : String) :
    join directory (stem ++ ending) = join directory stem ++ ending := by
  rw [join, join, isAbsolute_append h]
  split
  · rfl
  · split <;> simp [String.append_assoc]

end Ending

/-- One path leads to a directory that the other goes through before its last name. -/
structure OnWay (outer path : String) : Prop where
  nonempty : outer ≠ ""
  text : outer.toList <+: path.toList
  names : names outer <+: (names path).dropLast

lemma OnWay.isAbsolute_eq {outer path : String} (h : OnWay outer path) :
    isAbsolute outer = isAbsolute path := by
  obtain ⟨rest, hrest⟩ := h.text
  have hne : outer.toList ≠ [] := by simpa using h.nonempty
  rw [isAbsolute, isAbsolute, ← hrest, List.head?_append_of_ne_nil _ hne]

lemma trimmed_suffix (segments : List String) : trimmed segments <:+ segments := by
  induction segments using trimmed.induct with
  | case1 => exact List.suffix_rfl
  | case2 s => exact List.suffix_rfl
  | case3 s t rest hidle ih =>
    rw [trimmed, if_pos hidle]
    exact ih.trans (List.suffix_cons s _)
  | case4 s t rest hidle =>
    rw [trimmed, if_neg hidle]

lemma trimmed_ne_nil {segments : List String} (h : segments ≠ []) : trimmed segments ≠ [] := by
  induction segments using trimmed.induct with
  | case1 => contradiction
  | case2 s => simp [trimmed]
  | case3 s t rest hidle ih =>
    rw [trimmed, if_pos hidle]
    exact ih (by simp)
  | case4 s t rest hidle => simp [trimmed, hidle]

lemma mem_chain {segments : List String} {path : String} (h : path ∈ chain segments) :
    ∃ inner ≠ [], inner <:+ segments ∧ path = ofSegments inner := by
  induction segments using chain.induct with
  | case1 => simp [chain] at h
  | case2 s => exact ⟨[s], by simp, List.suffix_rfl, by simpa [chain] using h⟩
  | case3 s t rest hidle ih =>
    rw [chain, if_pos hidle] at h
    obtain ⟨inner, hne, hsuffix, rfl⟩ := ih h
    exact ⟨inner, hne, hsuffix.trans (List.suffix_cons s _), rfl⟩
  | case4 s t rest hidle ih =>
    rw [chain, if_neg hidle] at h
    rcases List.mem_cons.mp h with rfl | h
    · exact ⟨s :: t :: rest, by simp, List.suffix_rfl, rfl⟩
    · obtain ⟨inner, hne, hsuffix, rfl⟩ := ih h
      exact ⟨inner, hne, hsuffix.trans (List.suffix_cons s _), rfl⟩

/-- The segments that `ofSegments` puts together are found again, but for the top. -/
lemma segments_ofSegments {segments' : List String} (hne : segments' ≠ [])
    (hslash : ∀ s ∈ segments', '/' ∉ s.toList) (htop : segments' ≠ [""]) :
    segments (ofSegments segments') = segments' := by
  have hsplit : Text.split '/' (Text.join "/" segments'.reverse) = segments'.reverse :=
    Text.split_join (by simpa using hne) (by simpa using hslash)
  simp [segments, ofSegments, htop, hsplit]

lemma ofSegments_ne_empty {segments' : List String} (hne : segments' ≠ [])
    (hslash : ∀ s ∈ segments', '/' ∉ s.toList) : ofSegments segments' ≠ "" := by
  by_cases htop : segments' = [""]
  · simp [ofSegments, htop]
  · intro hempty
    have hfound := segments_ofSegments hne hslash htop
    rw [hempty] at hfound
    exact htop hfound.symm

lemma names_ofSegments {segments' : List String} (hne : segments' ≠ [])
    (hslash : ∀ s ∈ segments', '/' ∉ s.toList) :
    names (ofSegments segments') = segments'.reverse.filter (· != "") := by
  by_cases htop : segments' = [""]
  · subst htop; rfl
  · have hfound := congrArg List.reverse (segments_ofSegments hne hslash htop)
    rw [segments, List.reverse_reverse] at hfound
    rw [names, hfound]

lemma noSlash_of_mem_outer {base s : String} (h : s ∈ outer base) : '/' ∉ s.toList := by
  rw [outer, List.mem_reverse] at h
  exact Text.not_mem_of_mem_split (List.mem_of_mem_dropLast h)

/-- The first segments of a path are on the way to what it leads to. -/
lemma onWay_ofSegments {ending : String} (h : IsEnding ending) {base : String}
    {inner : List String} (hne : inner ≠ []) (hsuffix : inner <:+ outer base) :
    OnWay (ofSegments inner) (base ++ ending) := by
  have hslash : ∀ s ∈ inner, '/' ∉ s.toList := fun s hs => noSlash_of_mem_outer (hsuffix.subset hs)
  obtain ⟨more, hmore⟩ := hsuffix
  refine ⟨ofSegments_ne_empty hne hslash, ?_, ?_⟩
  · have hpath : Text.join "/" (Text.split '/' (base ++ ending)) = base ++ ending :=
      Text.join_split '/' _
    have hsplit : Text.split '/' (base ++ ending) =
        inner.reverse ++ (more.reverse ++ [innermost base ++ ending]) := by
      rw [Text.split_append h.noSlash, ← innermost, ← List.reverse_reverse (Text.split _ _).dropLast,
        ← outer, ← hmore, List.reverse_append, List.append_assoc]
    obtain ⟨next, rest, hrest⟩ := List.exists_cons_of_ne_nil
      (show more.reverse ++ [innermost base ++ ending] ≠ [] by simp)
    rw [hsplit, hrest, Text.join_append_cons "/" (by simpa using hne)] at hpath
    rw [← hpath]
    by_cases htop : inner = [""]
    · simp [ofSegments, htop]
    · simp [ofSegments, htop]
  · rw [names_ofSegments hne hslash, names_append h, List.dropLast_concat, ← hmore,
      List.reverse_append]
    exact (List.prefix_append _ _).filter _

/-- The directories around a generated file are on the way to it. -/
theorem onWay_of_mem_ancestors {ending : String} (h : IsEnding ending) {base path : String}
    (hpath : path ∈ ancestors (around base)) : OnWay path (base ++ ending) := by
  rw [around] at hpath
  split at hpath
  · simp [ancestors] at hpath
  · rename_i hne
    have hfirst := trimmed_ne_nil hne
    have hinner := trimmed_suffix (outer base)
    have hslash : ∀ s ∈ trimmed (outer base), '/' ∉ s.toList := fun s hs =>
      noSlash_of_mem_outer (hinner.subset hs)
    rw [ancestors, if_neg (by simpa using ofSegments_ne_empty hfirst hslash)] at hpath
    rcases List.mem_cons.mp hpath with rfl | hpath
    · exact onWay_ofSegments h hfirst hinner
    · obtain ⟨inner, hinnerNe, hsuffix, rfl⟩ := mem_chain hpath
      refine onWay_ofSegments h hinnerNe (hsuffix.trans ((List.tail_suffix _).trans ?_))
      by_cases htop : trimmed (outer base) = [""]
      · have htail : (trimmed (segments (ofSegments [""]))).tail = [] := rfl
        rw [htop, htail, List.suffix_nil] at hsuffix
        exact absurd hsuffix hinnerNe
      · rw [segments_ofSegments hfirst hslash htop]
        exact (trimmed_suffix _).trans hinner

/-- A path that does not end in a slash has a last segment. -/
lemma exists_last_segment {path : String} (hne : path ≠ "")
    (hslash : endsInSlash path = false) :
    ∃ outer last, Text.split '/' path = outer ++ [last] ∧ last ≠ "" := by
  rcases List.eq_nil_or_concat (Text.split '/' path) with hnil | ⟨outer, last, hsplit⟩
  · exact absurd hnil (Text.split_ne_nil _ _)
  rw [List.concat_eq_append] at hsplit
  refine ⟨outer, last, hsplit, ?_⟩
  rintro rfl
  have hjoin := Text.join_split '/' path
  rw [hsplit] at hjoin
  by_cases houter : outer = []
  · subst houter
    exact hne hjoin.symm
  · rw [Text.join_concat _ houter] at hjoin
    simp [endsInSlash, ← hjoin] at hslash

end BeanForge.FilePath
