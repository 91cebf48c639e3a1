import BeanForge.Proofs.ValueClass.Parts
/-!
# Rendered value classes are their code

What the renderer writes for a value class, form by form: each declaration, heading, body and
initializer is the text of its lines of code, and so are the two files.
-/
namespace BeanForge.ValueClass

open Text SourceText

lemma parameterTexts_eq (ps : List Parameter) :
    ps.map Parameter.text = ps.map fun p => p.type ++ p.name := rfl

lemma declareMethod_eq_lines (className : String) (f : Method) :
    declareMethod className f = lines (f.declarationCode className) := by
  refine String.toList_injective ?_
  cases f <;>
    simp [declareMethod, Method.declarationCode, parameterLines, parameterTexts_eq, Parameter.text,
      comparison, lines, line]

lemma declareField_eq_line (f : Field) : declareField f = line f.code := by
  refine String.toList_injective ?_
  simp [declareField, Field.code, braced, opening, closing, line]

lemma blockStart_eq_lines (c : ClassModel) : blockStart c = lines (startCode c) := rfl

lemma blockEnd_eq_lines (c : ClassModel) : blockEnd c = lines (endCode c) := by
  have hprivate : lines (if c.members.isEmpty then [] else ["private:"]) =
      if c.members.isEmpty then "" else line "private:" := by
    split <;> rfl
  simp only [endCode, lines_append, lines_flatMap, lines_map, lines_cons, lines_nil,
    String.append_empty, hprivate, ← declareMethod_eq_lines, ← declareField_eq_line]
  rfl

lemma heading_eq_lines (d : Definition) :
    d.heading = lines (d.method.definitionCode d.owner d.className) := by
  obtain ⟨owner, className, f, body⟩ := d
  refine String.toList_injective ?_
  cases f <;>
    simp [Definition.heading, Method.definitionCode, parameterLines, parameterTexts_eq,
      Parameter.text, comparison, lines, line]

lemma initializerLines_comma (values : List (String × String)) :
    initializerLines "," values = lines (values.map fun (property, value) =>
      "    , m_" ++ property ++ " \x7b" ++ value ++ "\x7d") := by
  induction values with
  | nil => rfl
  | cons v values ih =>
    rw [initializerLines, ih, List.map_cons, lines_cons]
    refine congrArg (· ++ _) (String.toList_injective ?_)
    simp [line, braced, opening, closing]

lemma initializerLines_colon (values : List (String × String)) :
    initializerLines ":" values = lines (initializerCode values) := by
  cases values with
  | nil => rfl
  | cons v values =>
    rw [initializerLines, initializerLines_comma, initializerCode, lines_cons]
    refine congrArg (· ++ _) (String.toList_injective ?_)
    simp [line, braced, opening, closing]

lemma Body.text_eq_lines (b : Body) :
    initializerLines ":" b.initializers ++ b.text = lines b.code := by
  cases b with
  | storeAll values =>
    rw [initializers, initializerLines_colon, code, lines_append]
    rfl
  | compare ps =>
    cases ps with
    | nil => rfl
    | cons p ps =>
      have hopen : ∀ q, "    if (m_" ++ q ++ " != other.m_" ++ q ++ ") " ++ opening =
          "    if (m_" ++ q ++ " != other.m_" ++ q ++ ") \x7b" := by
        intro q
        rw [String.append_assoc]
        rfl
      rw [code, lines_append, lines_append, lines_flatMap, text, if_neg (by simp),
        String.append_empty]
      simp only [← hopen]
      rfl
  | negate => rfl
  | fetch p => rfl
  | store p value => rfl

lemma Definition.text_eq_lines (d : Definition) : d.text = lines d.code :=
  calc d.text = d.heading ++ (initializerLines ":" d.body.initializers ++ d.body.text) ++
        emptyLine := by simp only [text, String.append_assoc]
    _ = lines (d.method.definitionCode d.owner d.className) ++ lines d.body.code ++
        lines [""] := by rw [heading_eq_lines, d.body.text_eq_lines]; rfl
    _ = lines d.code := by rw [code, lines_append, lines_append]

lemma shifted_eq (depth : ℕ) (code : List String) :
    shifted depth code = (linesOf (lines code)).map (margin depth ++ ·) := by
  rw [linesOf_lines, shifted]

/-- The parts of a class are its lines at a depth. -/
lemma flatMap_code_parts (depth : ℕ) (c : ClassModel) :
    (parts depth c).flatMap Part.code = layout depth c := by
  induction c using ClassModel.class_induction generalizing depth with
  | step c ih =>
    rw [parts_eq, layout_eq, List.flatMap_append, List.flatMap_cons, List.flatMap_assoc,
      List.flatMap_congr fun d hd => ih d hd (depth + 1), List.flatMap_singleton, Part.code,
      Part.code, shifted_eq, shifted_eq, blockStart_eq_lines, blockEnd_eq_lines]

lemma declaration_eq_lines (c : ClassModel) :
    declaration c = lines ((parts 0 c).flatMap Part.code) := by
  have hroot : layout 0 c = linesOf (declaration c) := by
    rw [layout_eq_map, margin_zero]
    simp
  rw [flatMap_code_parts, hroot, (wellEnded_declaration c).lines_linesOf]

lemma definitions_eq_lines (ds : List Definition) :
    String.join (ds.map Definition.text) = lines (ds.flatMap Definition.code) := by
  rw [lines_flatMap]
  exact congrArg String.join (List.map_congr_left fun d _ => d.text_eq_lines)

lemma header_eq_lines (m : Model) (stem : String) : header m stem = lines (headerCode m stem) := by
  refine String.toList_injective ?_
  simp [header, guarded, guardName, includes_eq_lines, includeSystem, openNamespace, closeNamespace,
    globalsHeader, emptyLine, opening, closing, headerCode, lines_append, lines_cons,
    ← declaration_eq_lines, line]

lemma source_eq_lines (m : Model) (stem : String) : source m stem = lines (sourceCode m stem) := by
  refine String.toList_injective ?_
  simp [source, includeLocal, openNamespace, closeNamespace, allDefinitions,
    emptyLine, opening, closing, sourceCode, lines_append, lines_cons,
    ← definitions_eq_lines, line]

/-- The files of a model consist of the code of its classes. -/
theorem files_eq_code (m : Model) (stem : String) :
    files m stem = [.ofLines (stem ++ ".h") (headerCode m stem),
      .ofLines (stem ++ ".cpp") (sourceCode m stem)] := by
  rw [files, header_eq_lines, source_eq_lines]
  rfl

end BeanForge.ValueClass
