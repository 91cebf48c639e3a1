import BeanForge.SourceText
import Mathlib.Data.List.Infix
/-!
# Lines of a text, and what indentation does to them

A text that ends with a newline is its lines, each with a newline behind it. Indentation drops the
blanks around a text before it puts spaces in front of the lines, so it moves the lines of a text
and changes nothing else only if the text is well ended: its final newline is the only blank at its
two ends.
-/
namespace BeanForge.Text

/-- The lines of a text that ends with a newline. -/
def linesOf (text : String) : List String :=
  (split '\n' text).dropLast

/-- The final newline is the only blank at the two ends of a text. -/
def WellEnded (text : String) : Prop :=
  ∃ body, text = line body ∧ trim text.toList = body.toList

@[simp] lemma linesOf_empty : linesOf "" = [] := rfl

@[simp] lemma margin_zero : margin 0 = "" := rfl

lemma margin_succ (depth : ℕ) : margin (depth + 1) = margin depth ++ "    " := by
  rw [margin, Nat.mul_succ, List.replicate_add, String.ofList_append]
  rfl

lemma lines_append (texts more : List String) :
    lines (texts ++ more) = lines texts ++ lines more := by
  rw [lines, List.map_append, String.join_append, lines, lines]

lemma lines_cons (text : String) (texts : List String) :
    lines (text :: texts) = line text ++ lines texts := by
  rw [lines, List.map_cons, String.join_cons, lines]

lemma join_flatMap {α : Type} (xs : List α) (f : α → List String) :
    String.join (xs.flatMap f) = String.join (xs.map fun x => String.join (f x)) := by
  induction xs with
  | nil => rfl
  | cons x xs ih => rw [List.flatMap_cons, String.join_append, ih, List.map_cons, String.join_cons]

lemma lines_flatMap {α : Type} (xs : List α) (f : α → List String) :
    lines (xs.flatMap f) = String.join (xs.map fun x => lines (f x)) := by
  rw [lines, List.map_flatMap, join_flatMap]
  rfl

lemma lines_map {α : Type} (xs : List α) (f : α → String) :
    lines (xs.map f) = String.join (xs.map fun x => line (f x)) := by
  rw [lines, List.map_map]
  rfl

lemma includes_eq_lines (headers : List String) :
    String.join (headers.map SourceText.includeSystem) =
      lines (headers.map fun header => "#include <" ++ header ++ ">") := by
  rw [lines_map]
  rfl

/-- A line is split apart from all that comes after it. -/
lemma linesOf_line_append (text rest : String) :
    linesOf (line text ++ rest) = split '\n' text ++ linesOf rest := by
  have hsplit : split '\n' (line text ++ rest) = split '\n' text ++ split '\n' rest := by
    rw [split, line, String.append_assoc, String.toList_append, String.toList_append]
    exact (congrArg _ (splitChars_append_sep '\n' _ _)).trans (List.map_append ..)
  rw [linesOf, hsplit, List.dropLast_append_of_ne_nil (split_ne_nil '\n' rest), linesOf]

lemma linesOf_line (text : String) : linesOf (line text) = split '\n' text := by
  have h := linesOf_line_append text ""
  rwa [String.append_empty, linesOf_empty, List.append_nil] at h

/-- Whole lines are split apart from all that comes after them. -/
lemma linesOf_lines_append_eq (texts : List String) (rest : String) :
    linesOf (lines texts ++ rest) = texts.flatMap (split '\n') ++ linesOf rest := by
  induction texts with
  | nil => simp
  | cons text texts ih =>
    rw [lines] at ih
    rw [lines, List.map_cons, String.join_cons, String.append_assoc, linesOf_line_append, ih,
      List.flatMap_cons, List.append_assoc]

lemma linesOf_lines (texts : List String) : linesOf (lines texts) = texts.flatMap (split '\n') := by
  have h := linesOf_lines_append_eq texts ""
  rwa [String.append_empty, linesOf_empty, List.append_nil] at h

lemma linesOf_lines_append (texts : List String) (rest : String) :
    linesOf (lines texts ++ rest) = linesOf (lines texts) ++ linesOf rest := by
  rw [linesOf_lines_append_eq, linesOf_lines]

/-- No line has a newline inside. -/
lemma newline_not_mem_of_mem_linesOf {text l : String} (h : l ∈ linesOf text) :
    '\n' ∉ l.toList :=
  not_mem_of_mem_split (List.mem_of_mem_dropLast h)

/-- Texts without newlines are the lines that they make. -/
lemma linesOf_lines_of_forall {texts : List String} (h : ∀ l ∈ texts, '\n' ∉ l.toList) :
    linesOf (lines texts) = texts := by
  rw [linesOf_lines, List.flatMap_congr (g := fun l => [l]), List.flatMap_singleton']
  intro l hl
  simp [split, splitChars_eq_singleton (h l hl)]

lemma lines_eq_join {texts : List String} (h : texts ≠ []) :
    lines texts = line (join "\n" texts) := by
  induction texts with
  | nil => contradiction
  | cons text texts ih =>
    cases texts with
    | nil => simp [lines]
    | cons next texts =>
      rw [lines, List.map_cons, String.join_cons]
      rw [lines] at ih
      rw [ih (by simp), join_cons_cons]
      simp only [line, String.append_assoc]

/-- A text that ends with a newline is put together from its lines. -/
lemma lines_linesOf (text : String) : lines (linesOf (line text)) = line text := by
  rw [linesOf_line, lines_eq_join (split_ne_nil '\n' text)]
  exact congrArg line (join_split '\n' text)

/-- Spaces in front of each piece are those in front of the first one and after each separator. -/
lemma join_map_append (before sep : String) {pieces : List String} (h : pieces ≠ []) :
    before ++ join (sep ++ before) pieces = join sep (pieces.map (before ++ ·)) := by
  induction pieces with
  | nil => contradiction
  | cons piece pieces ih =>
    cases pieces with
    | nil => rfl
    | cons next pieces =>
      rw [join_cons_cons, List.map_cons, List.map_cons, join_cons_cons, ← List.map_cons,
        ← ih (by simp)]
      simp only [String.append_assoc]

/-- A text between two characters that are not blank is well ended by a newline. -/
lemma wellEnded_line {first last : Char} (hfirst : isBlank first = false)
    (hlast : isBlank last = false) (between : String) :
    WellEnded (line (String.singleton first ++ between ++ String.singleton last)) := by
  refine ⟨_, rfl, ?_⟩
  have hnewline : isBlank '\n' = true := by decide
  simp [line, trim, trimStart, hfirst, hlast, hnewline]

namespace WellEnded

variable {text : String}

lemma lines_linesOf (h : WellEnded text) : lines (linesOf text) = text := by
  obtain ⟨body, rfl, -⟩ := h
  exact Text.lines_linesOf body

/-- Indentation puts four spaces in front of each line and does nothing else. -/
theorem line_indent (h : WellEnded text) :
    line (indent text) = lines ((linesOf text).map ("    " ++ ·)) := by
  obtain ⟨body, rfl, htrim⟩ := h
  rw [indent, htrim, String.ofList_toList, linesOf_line,
    lines_eq_join (by simpa using split_ne_nil '\n' body)]
  exact congrArg line (join_map_append "    " "\n" (split_ne_nil '\n' body))

/-- The lines of an indented text stay together. -/
theorem linesOf_indent_append (h : WellEnded text) (rest : String) :
    linesOf (line (indent text) ++ rest) = (linesOf text).map ("    " ++ ·) ++ linesOf rest := by
  have hspaces : '\n' ∉ "    ".toList := by decide
  rw [h.line_indent, linesOf_lines_append, linesOf_lines_of_forall]
  refine List.forall_mem_map.mpr fun l hl => ?_
  rw [String.toList_append, List.mem_append]
  exact not_or.mpr ⟨hspaces, newline_not_mem_of_mem_linesOf hl⟩

end WellEnded

end BeanForge.Text
