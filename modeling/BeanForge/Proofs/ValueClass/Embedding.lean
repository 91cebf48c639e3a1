import BeanForge.Proofs.Agreement.Positions
import BeanForge.Proofs.Text.Lines
import BeanForge.ValueClass
/-!
# Nested classes stand in their parents as they stand alone

The declaration of a class starts with a keyword and ends with a semicolon and a newline, whatever
names, types and values it is written from. Indentation therefore finds no other blanks to drop,
and going down the tree each level puts its spaces in front of all lines that the level below it
has made.
-/
namespace BeanForge.ValueClass

open Text SourceText

mutual

/-- The lines of a class at a depth: its own ones are further to the right by this depth, and
those of its classes stand between them, each class one level deeper. -/
def layout (depth : ℕ) : ClassModel → List String
  | ⟨name, moduleName, nestedName, members, classes, isConst, rootName, plan⟩ =>
    let c : ClassModel :=
      ⟨name, moduleName, nestedName, members, classes, isConst, rootName, plan⟩
    (linesOf (blockStart c)).map (margin depth ++ ·) ++ layoutAll (depth + 1) classes ++
      (linesOf (blockEnd c)).map (margin depth ++ ·)

/-- The lines of several classes at a depth, one class after the other. -/
def layoutAll (depth : ℕ) : List ClassModel → List String
  | [] => []
  | c :: cs => layout depth c ++ layoutAll depth cs

end

lemma layoutAll_eq_flatMap (depth : ℕ) (cs : List ClassModel) :
    layoutAll depth cs = cs.flatMap (layout depth) := by
  induction cs with
  | nil => rfl
  | cons c cs ih => rw [layoutAll, ih, List.flatMap_cons]

lemma layout_eq (depth : ℕ) (c : ClassModel) :
    layout depth c = (linesOf (blockStart c)).map (margin depth ++ ·) ++
      c.classes.flatMap (layout (depth + 1)) ++
        (linesOf (blockEnd c)).map (margin depth ++ ·) := by
  obtain ⟨_, _, _, _, _, _, _, _⟩ := c
  rw [layout, layoutAll_eq_flatMap]

lemma nestedDeclarations_eq (cs : List ClassModel) :
    nestedDeclarations cs = String.join (cs.map fun d => line (indent (declaration d))) := by
  induction cs with
  | nil => rfl
  | cons c cs ih => rw [nestedDeclarations, ih, List.map_cons, String.join_cons]

lemma declaration_eq (c : ClassModel) :
    declaration c =
      blockStart c ++ String.join (c.classes.map fun d => line (indent (declaration d))) ++
        blockEnd c := by
  obtain ⟨_, _, _, _, _, _, _, _⟩ := c
  rw [declaration, nestedDeclarations_eq]

/-- No text of a class stands at one of the two ends of its declaration. -/
lemma wellEnded_declaration (c : ClassModel) : WellEnded (declaration c) := by
  obtain ⟨start, hstart⟩ : ∃ start, blockStart c = "c" ++ start :=
    ⟨"lass " ++ c.name ++ "\n" ++ lines [opening, "public:"], by
      simp only [blockStart, lines, line, List.map_cons, List.map_nil, String.join_cons,
        String.append_assoc, show "class " = "c" ++ "lass " from rfl]⟩
  -- All that a class declares stands between its first letter and its last semicolon.
  obtain ⟨ending, hending⟩ : ∃ ending, blockEnd c = line (ending ++ ";") := by
    simp only [blockEnd, line, ← String.append_assoc]
    exact ⟨_, rfl⟩
  have hline : declaration c = line ("c" ++ (start ++
      String.join (c.classes.map fun d => line (indent (declaration d))) ++ ending) ++ ";") := by
    rw [declaration_eq, hstart, hending]
    simp only [line, String.append_assoc]
  rw [hline]
  have hfirst : isBlank 'c' = false := by decide
  have hlast : isBlank ';' = false := by decide
  exact wellEnded_line hfirst hlast _

lemma linesOf_nested_append (cs : List ClassModel) (rest : String) :
    linesOf (String.join (cs.map fun d => line (indent (declaration d))) ++ rest) =
      cs.flatMap (fun d => (linesOf (declaration d)).map ("    " ++ ·)) ++ linesOf rest := by
  induction cs with
  | nil => simp
  | cons c cs ih =>
    rw [List.map_cons, String.join_cons, String.append_assoc,
      (wellEnded_declaration c).linesOf_indent_append, ih, List.flatMap_cons, List.append_assoc]

/-- What one level of nesting does. -/
lemma linesOf_declaration (c : ClassModel) :
    linesOf (declaration c) = linesOf (blockStart c) ++
      c.classes.flatMap (fun d => (linesOf (declaration d)).map ("    " ++ ·)) ++
        linesOf (blockEnd c) := by
  rw [declaration_eq, String.append_assoc, blockStart, linesOf_lines_append, linesOf_nested_append,
    List.append_assoc]

/-- Each class of a tree stands at its depth as it stands alone. -/
theorem layout_eq_map (depth : ℕ) (c : ClassModel) :
    layout depth c = (linesOf (declaration c)).map (margin depth ++ ·) := by
  induction c using ClassModel.class_induction generalizing depth with
  | step c ih =>
    -- The spaces that the parent puts in front of a class join those in front of the parent.
    have hclass : ∀ d ∈ c.classes, layout (depth + 1) d =
        ((linesOf (declaration d)).map ("    " ++ ·)).map (margin depth ++ ·) := by
      intro d hd
      rw [ih d hd, List.map_map]
      refine List.map_congr_left fun l _ => ?_
      rw [margin_succ, String.append_assoc]
      rfl
    rw [layout_eq, linesOf_declaration, List.map_append, List.map_append, List.map_flatMap,
      List.flatMap_congr hclass]

/-- The lines of a class further down stand together. -/
lemma layout_infix_of_at? {c d : ClassModel} {position : List ℕ} (depth : ℕ)
    (h : c.at? position = some d) : layout (depth + position.length) d <:+: layout depth c := by
  induction position generalizing c depth with
  | nil => rw [Option.some.inj h]; exact List.infix_rfl
  | cons i position ih =>
    obtain ⟨e, he, hd⟩ := Option.bind_eq_some_iff.mp h
    have hdeep : layout (depth + (i :: position).length) d <:+: layout (depth + 1) e := by
      rw [List.length_cons, Nat.add_comm position.length, ← Nat.add_assoc]
      exact ih (depth + 1) hd
    have hnested : layout (depth + 1) e <:+: c.classes.flatMap (layout (depth + 1)) := by
      obtain ⟨front, back, hsplit⟩ := List.append_of_mem (List.mem_of_getElem? he)
      rw [hsplit, List.flatMap_append, List.flatMap_cons, ← List.append_assoc]
      exact List.infix_append _ _ _
    rw [layout_eq depth c]
    exact hdeep.trans (hnested.trans (List.infix_append _ _ _))

/-- A class stands in the classes around it line by line as it stands alone, as far to the right as
it is deep. What a class declares itself comes after its classes, which stand one after the other
in their order. -/
theorem declaration_embeds (c : ClassModel) :
    lines (linesOf (declaration c)) = declaration c ∧
    (∀ l ∈ linesOf (declaration c), '\n' ∉ l.toList) ∧
    linesOf (declaration c) = layout 0 c ∧
    (∀ depth, layout depth c = (linesOf (declaration c)).map (margin depth ++ ·)) ∧
    ∀ position d, c.at? position = some d →
      (linesOf (declaration d)).map (margin position.length ++ ·) <:+:
        linesOf (declaration c) := by
  have hroot : linesOf (declaration c) = layout 0 c := by
    rw [layout_eq_map, margin_zero]
    simp
  refine ⟨(wellEnded_declaration c).lines_linesOf, fun _ hl => newline_not_mem_of_mem_linesOf hl,
    hroot, fun depth => layout_eq_map depth c, fun position d h => ?_⟩
  have hinfix := layout_infix_of_at? 0 h
  rwa [Nat.zero_add, layout_eq_map, ← hroot] at hinfix

/-- A class whose name has blanks around it and a line break inside. -/
def blankClass : ClassModel :=
  ⟨" A\n B ", "m", "C::A", [], [], true, none, none⟩

/-- A class around two others, the second one of them nested deeper. -/
def outerClass : ClassModel :=
  ⟨"C", "m", "C", [], [blankClass, ⟨"D", "m", "C::D", [], [blankClass], true, none, none⟩], true,
    none, none⟩

theorem declaration_embeds_outerClass :
    outerClass.at? [1, 0] = some blankClass ∧
    (linesOf (declaration blankClass)).map (margin 2 ++ ·) <:+: linesOf (declaration outerClass) :=
  ⟨rfl, (declaration_embeds outerClass).2.2.2.2 [1, 0] blankClass rfl⟩

end BeanForge.ValueClass
