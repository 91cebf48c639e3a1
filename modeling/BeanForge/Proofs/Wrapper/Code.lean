import BeanForge.Proofs.Text.Lines
import BeanForge.Wrapper.Code
/-!
# Rendered wrappers are their code

What the renderer writes for a wrapper, form by form, as for value classes.
-/
namespace BeanForge.Wrapper

open Text SourceText

lemma Exposed.text_eq_line (e : Exposed) : e.text = line e.code := by
  unfold text code
  refine congrArg line ?_
  cases e.write <;> cases e.notify <;>
    simp only [Option.elim_none, Option.elim_some, signal, String.append_assoc, String.append_empty]

lemma declareMethod_eq_lines (wrapper bean : String) (f : Method) :
    declareMethod wrapper bean f = lines (f.declarationCode wrapper bean) := by
  refine String.toList_injective ?_
  cases f <;> simp [declareMethod, Method.declarationCode, Parameter.text, lines, line]

lemma heading_eq_lines (d : Definition) :
    d.heading = lines (d.method.definitionCode d.wrapper d.bean) := by
  obtain ⟨wrapper, bean, f, body⟩ := d
  refine String.toList_injective ?_
  cases f <;> simp [Definition.heading, Method.definitionCode, Parameter.text, lines, line]

lemma Part.text_eq_code (part : Part) : part.text = part.code := by
  cases part <;> rfl

/-- A child takes over its part of the data. -/
lemma initializer_eq (child : Child) :
    "    , m_" ++ child.property ++ " " ++
        braced ("new " ++ child.wrapper ++ "(m_data." ++ child.getter ++ "(), this)") =
      "    , m_" ++ child.property ++ " \x7bnew " ++ child.wrapper ++ "(m_data." ++
        child.getter ++ "(), this)\x7d" := by
  refine String.toList_injective ?_
  simp [braced, opening, closing]

/-- A signal is emitted if the value has changed. -/
lemma notification_eq_lines (w : Watched) :
    line ("    if (previous." ++ w.getter ++ "() != m_data." ++ w.getter ++ "()) " ++ opening) ++
        emit w.property ++ line ("    " ++ closing) =
      lines ["    if (previous." ++ w.getter ++ "() != m_data." ++ w.getter ++ "()) \x7b",
        "        Q_EMIT " ++ w.property ++ "Changed();", "    \x7d"] := by
  refine String.toList_injective ?_
  simp [emit, signal, opening, closing, lines, line]

lemma Body.text_eq_lines (wrapper bean : String) (b : Body) :
    b.text wrapper bean = lines (b.code wrapper bean) := by
  cases b with
  | useDefault => rfl
  | takeOver children =>
    rw [code, lines_append, lines_append, lines_map]
    simp only [text, initializer_eq]
    rfl
  | showChild property => rfl
  | showValue getter => rfl
  | change getter setter property value =>
    refine String.toList_injective ?_
    simp [text, code, signal, opening, closing, lines, line]
  | collect parts =>
    cases parts with
    | nil =>
      refine String.toList_injective ?_
      simp [text, code, braced, opening, closing, lines, line]
    | cons part parts =>
      have hparts : (part :: parts).map Part.text = (part :: parts).map Part.code :=
        List.map_congr_left fun part _ => part.text_eq_code
      rw [text, code, hparts]
      refine String.toList_injective ?_
      simp [bracedList, opening, closing, lines, line]
  | replace children watched =>
    have hprevious : lines (if watched.isEmpty then []
        else ["    const " ++ bean ++ " previous \x7bm_data\x7d;"]) =
        if watched.isEmpty then ""
        else line ("    const " ++ bean ++ " previous " ++ braced "m_data" ++ ";") := by
      split
      · rfl
      · refine String.toList_injective ?_
        simp [braced, opening, closing, lines, line]
    simp only [code, lines_append, lines_map, lines_flatMap, hprevious, ← notification_eq_lines]
    simp only [lines_cons, lines_nil, String.append_empty]
    rfl

lemma Definition.text_eq_lines (d : Definition) : d.text = lines d.code := by
  rw [text, heading_eq_lines, d.body.text_eq_lines, code, lines_append]

lemma declaration_eq_lines (c : ClassModel) : declaration c = lines (declarationCode c) := by
  have hsignals : lines (if (signals c).isEmpty then [] else ["Q_SIGNALS:"]) =
      if (signals c).isEmpty then "" else line "Q_SIGNALS:" := by
    split <;> rfl
  simp only [declarationCode, lines_append, lines_cons, lines_nil, String.append_empty, lines_map,
    lines_flatMap, hsignals, ← declareMethod_eq_lines, ← Exposed.text_eq_line, declaration, signal,
    String.append_assoc]
  rfl

lemma declarations_eq_lines (cs : List ClassModel) :
    String.join (cs.map fun c => emptyLine ++ declaration c) =
      lines (cs.flatMap fun c => "" :: declarationCode c) := by
  simp only [lines_flatMap, lines_cons, declaration_eq_lines]
  rfl

lemma definitions_eq_lines (cs : List ClassModel) :
    String.join ((cs.flatMap definitions).map fun d => emptyLine ++ d.text) =
      lines (cs.flatMap fun c => (definitions c).flatMap fun d => "" :: d.code) := by
  rw [← List.flatMap_assoc, lines_flatMap]
  simp only [lines_cons, Definition.text_eq_lines]
  rfl

lemma header_eq_lines (m : Model) (stem : String) : header m stem = lines (headerCode m stem) := by
  have hlist : lines (if m.hasList then ["#include <vector>"] else []) =
      if m.hasList then includeSystem "vector" else "" := by
    split <;> rfl
  refine String.toList_injective ?_
  simp [header, guarded, guardName, namespaceName, includeSystem, includeLocal, openNamespace,
    closeNamespace, emptyLine, opening, closing, headerCode, lines_append, lines_cons, hlist,
    ← declarations_eq_lines, line]

lemma source_eq_lines (m : Model) (stem : String) : source m stem = lines (sourceCode m stem) := by
  refine String.toList_injective ?_
  simp [source, includeLocal, openNamespace, closeNamespace, namespaceName,
    emptyLine, opening, closing, sourceCode, lines_append, lines_cons,
    ← definitions_eq_lines, line]

/-- The files of a model consist of the code of its wrappers. -/
theorem files_eq_code (m : Model) (stem : String) :
    files m stem = [.ofLines (stem ++ "object.h") (headerCode m stem),
      .ofLines (stem ++ "object.cpp") (sourceCode m stem)] := by
  rw [files, header_eq_lines, source_eq_lines]
  rfl

end BeanForge.Wrapper
