/-!
# Splitting at a separator

`split sep` cuts a text at every occurrence of one character, so a text with `n` separators has
`n + 1` pieces, some of them empty. `join` puts the separator back: `join_split` says that
nothing is lost, and `split_join` that pieces without the separator are found again.
-/
namespace BeanForge.Text

/-- The pieces between the separators; there is always at least one. -/
def splitChars (sep : Char) : List Char → List (List Char)
  | [] => [[]]
  | c :: rest =>
    if c = sep then [] :: splitChars sep rest
    else
      match splitChars sep rest with
      | [] => [[c]]
      | piece :: pieces => (c :: piece) :: pieces

/-- The pieces of a text between the separators. -/
def split (sep : Char) (text : String) : List String :=
  (splitChars sep text.toList).map String.ofList

/-- The pieces with the separator between each two of them. -/
def join (sep : String) : List String → String
  | [] => ""
  | [piece] => piece
  | piece :: next :: pieces => piece ++ sep ++ join sep (next :: pieces)

@[simp] theorem join_nil (sep : String) : join sep [] = "" := rfl

@[simp] theorem join_singleton (sep piece : String) : join sep [piece] = piece := rfl

@[simp] theorem join_cons_cons (sep piece next : String) (pieces : List String) :
    join sep (piece :: next :: pieces) = piece ++ sep ++ join sep (next :: pieces) := rfl

theorem splitChars_ne_nil (sep : Char) (cs : List Char) : splitChars sep cs ≠ [] := by
  cases cs with
  | nil => simp [splitChars]
  | cons c rest =>
    rw [splitChars]
    split
    · simp
    · split <;> simp

theorem split_ne_nil (sep : Char) (text : String) : split sep text ≠ [] := by
  simp [split, splitChars_ne_nil]

theorem join_split (sep : Char) (text : String) :
    join (String.singleton sep) (split sep text) = text := by
  suffices h : ∀ cs : List Char,
      (join (String.singleton sep) ((splitChars sep cs).map String.ofList)).toList = cs by
    apply String.toList_injective
    exact h text.toList
  intro cs
  induction cs with
  | nil => simp [splitChars]
  | cons c rest ih =>
    have hne := splitChars_ne_nil sep rest
    obtain ⟨p, ps, hps⟩ : ∃ p ps, splitChars sep rest = p :: ps := by
      cases h : splitChars sep rest with
      | nil => exact absurd h hne
      | cons p ps => exact ⟨p, ps, rfl⟩
    rw [hps] at ih
    rw [splitChars, hps]
    split
    · subst c
      simp_all
    · cases ps with
      | nil => simp_all
      | cons q qs => simp_all

theorem join_append_cons (sep : String) {pieces : List String} (h : pieces ≠ [])
    (next : String) (more : List String) :
    join sep (pieces ++ next :: more) = join sep pieces ++ sep ++ join sep (next :: more) := by
  induction pieces with
  | nil => contradiction
  | cons piece pieces ih =>
    cases pieces with
    | nil => rfl
    | cons piece' pieces =>
      have hrest := ih (by simp)
      rw [List.cons_append] at hrest
      simp [hrest, String.append_assoc]

theorem join_concat (sep : String) {pieces : List String} (h : pieces ≠ []) (last : String) :
    join sep (pieces ++ [last]) = join sep pieces ++ sep ++ last :=
  join_append_cons sep h last []

/-- What stands on the two sides of a separator is split apart. -/
theorem splitChars_append_sep (sep : Char) (cs rest : List Char) :
    splitChars sep (cs ++ sep :: rest) = splitChars sep cs ++ splitChars sep rest := by
  induction cs with
  | nil => simp [splitChars]
  | cons c cs ih =>
    rw [List.cons_append, splitChars, splitChars, ih]
    split
    · rfl
    · obtain ⟨piece, pieces, hpieces⟩ := List.exists_cons_of_ne_nil (splitChars_ne_nil sep cs)
      simp [hpieces]

/-- Text without the separator goes on with the last piece before it. -/
theorem splitChars_append {sep : Char} {ending : List Char} (h : sep ∉ ending) (cs : List Char) :
    splitChars sep (cs ++ ending) =
      (splitChars sep cs).dropLast ++ [(splitChars sep cs).getLastD [] ++ ending] := by
  induction cs with
  | nil =>
    induction ending with
    | nil => simp [splitChars]
    | cons c ending ih =>
      obtain ⟨hc, hending⟩ : sep ≠ c ∧ sep ∉ ending := by simpa using h
      have hrest := ih hending
      simp only [List.nil_append, splitChars, List.getLastD_cons, List.getLastD_nil,
        List.dropLast_singleton] at hrest ⊢
      rw [if_neg (Ne.symm hc), hrest]
  | cons c cs ih =>
    obtain ⟨piece, pieces, hpieces⟩ := List.exists_cons_of_ne_nil (splitChars_ne_nil sep cs)
    rw [List.cons_append, splitChars, splitChars, ih, hpieces]
    split
    · simp
    · cases pieces <;> simp

/-- Text without the separator is a single piece. -/
theorem splitChars_eq_singleton {sep : Char} {piece : List Char} (h : sep ∉ piece) :
    splitChars sep piece = [piece] := by
  simpa [splitChars] using splitChars_append h []

/-- Text without the separator stays together in front of the first separator. -/
theorem splitChars_append_cons {sep : Char} {piece : List Char} (h : sep ∉ piece)
    (rest : List Char) :
    splitChars sep (piece ++ sep :: rest) = piece :: splitChars sep rest := by
  rw [splitChars_append_sep, splitChars_eq_singleton h, List.singleton_append]

theorem not_mem_of_mem_splitChars {sep : Char} {cs piece : List Char}
    (h : piece ∈ splitChars sep cs) : sep ∉ piece := by
  induction cs generalizing piece with
  | nil => simp_all [splitChars]
  | cons c cs ih =>
    obtain ⟨first, pieces, hpieces⟩ := List.exists_cons_of_ne_nil (splitChars_ne_nil sep cs)
    rw [splitChars, hpieces] at h
    rw [hpieces] at ih
    split at h
    · rcases List.mem_cons.mp h with rfl | hmem
      · simp
      · exact ih hmem
    · rename_i hc
      rcases List.mem_cons.mp h with rfl | hmem
      · simpa [Ne.symm hc] using ih List.mem_cons_self
      · exact ih (List.mem_cons_of_mem _ hmem)

theorem not_mem_of_mem_split {sep : Char} {text piece : String} (h : piece ∈ split sep text) :
    sep ∉ piece.toList := by
  obtain ⟨cs, hcs, rfl⟩ := List.mem_map.mp h
  simpa using not_mem_of_mem_splitChars hcs

theorem split_append {sep : Char} {ending : String} (h : sep ∉ ending.toList) (text : String) :
    split sep (text ++ ending) =
      (split sep text).dropLast ++ [(split sep text).getLastD "" ++ ending] := by
  have hlast : (split sep text).getLastD "" =
      String.ofList ((splitChars sep text.toList).getLastD []) := by
    simp [split, List.getLastD_eq_getLast?, List.getLast?_map]
  rw [hlast, split, split, String.toList_append, splitChars_append h]
  simp [List.map_dropLast, String.ofList_append]

theorem split_join {sep : Char} {pieces : List String} (hne : pieces ≠ [])
    (h : ∀ piece ∈ pieces, sep ∉ piece.toList) :
    split sep (join (String.singleton sep) pieces) = pieces := by
  induction pieces with
  | nil => contradiction
  | cons piece pieces ih =>
    have hpiece := splitChars_eq_singleton (h piece List.mem_cons_self)
    cases pieces with
    | nil => simp [split, hpiece]
    | cons next pieces =>
      have hrest := ih (by simp) fun q hq => h q (List.mem_cons_of_mem _ hq)
      rw [split] at hrest
      simp [split, splitChars_append_sep, hpiece, hrest]

end BeanForge.Text
