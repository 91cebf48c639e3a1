import BeanForge.Decoder.Code
import BeanForge.Proofs.Text.Lines
/-!
# Rendered decoders are their code

What the renderer writes for a decoder, form by form, as for value classes. The two files are there
if, and only if, all functions can be made, and they are then the code of these functions.
-/
namespace BeanForge.Decoder

open Text SourceText

lemma loopStart_eq (object key : String) :
    loopStart object key = "    for (const QJsonValue &json_value : " ++ object ++ ".value(" ++
      keyText key ++ ").toArray()) \x7b" := by
  refine String.toList_injective ?_
  unfold loopStart
  simp [elementLocal, valueText, opening]

lemma parseCall_eq (function value : String) :
    parseCall function value = callCode function value := by
  refine congrArg₂ List.cons ?_ (by rfl)
  simp [parsedLocal, String.append_assoc]

lemma Statement.text_eq_lines (s : Statement) : s.text = lines s.code := by
  refine String.toList_injective ?_
  cases s with
  | bind | require | scalar | declareDefault | declareList =>
    simp [text, code, giveUp, valueText, braced, opening, closing, lines, line]
  | appendScalars =>
    simp [text, code, loopStart_eq, elementLocal, closing, lines, line]
  | parse =>
    simp [text, code, parseCall_eq, callCode, valueText, parsedLocal, opening, closing, lines, line]
  | appendParsed =>
    simp [text, code, loopStart_eq, parseCall_eq, callCode, elementLocal, parsedLocal, closing,
      lines, line]
  | construct type arguments =>
    cases arguments with
    | nil => simp [text, code, braced, opening, closing, lines, line]
    | cons a rest =>
      have harguments : (a :: rest).map Argument.text = (a :: rest).map Argument.code := rfl
      rw [text, harguments]
      simp [code, bracedList, opening, closing, lines, line]

lemma parameterText_eq : parameterText = "(const QJsonObject &json_root)" := rfl

lemma DecodeFunction.text_eq_lines (f : DecodeFunction) : f.text = lines f.code := by
  have hbody : String.join (f.body.map Statement.text) = lines (f.body.flatMap Statement.code) := by
    rw [lines_flatMap]
    exact congrArg String.join (List.map_congr_left fun s _ => s.text_eq_lines)
  refine String.toList_injective ?_
  simp [text, code, hbody, optionalOf, parameterText_eq, opening, closing, lines_append,
    lines_cons, line]

lemma parseFunctionsText_eq_lines (fs : List DecodeFunction) :
    parseFunctionsText fs = lines (functionsCode fs) := by
  cases fs with
  | nil => rfl
  | cons f fs =>
    have hfunctions : String.join ((f :: fs).map fun f => f.text ++ emptyLine) =
        lines ((f :: fs).flatMap fun f => f.code ++ [""]) := by
      simp only [lines_flatMap, lines_append, DecodeFunction.text_eq_lines]
      rfl
    rw [parseFunctionsText, if_neg (by simp), hfunctions, functionsCode, lines_append, lines_append]
    simp only [lines_cons, lines_nil, String.append_empty, String.append_assoc]
    rfl

lemma factory_eq_lines (m : Model) :
    lines ["class " ++ factoryName m, opening, "public:",
      "    static " ++ optionalOf m.root.name ++ " fromJson" ++ parameterText ++ ";",
      closing ++ ";"] = lines (factoryCode m) := by
  refine String.toList_injective ?_
  simp [factoryName, optionalOf, parameterText_eq, opening, closing, factoryCode, lines_cons, line]

lemma header_eq_lines (m : Model) (stem : String) : header m stem = lines (headerCode m stem) := by
  have hopen : openNamespace m.root.moduleName =
      line ("namespace " ++ m.root.moduleName ++ " \x7b") := by
    rw [openNamespace, String.append_assoc]
    rfl
  have hguard : guardName stem "JSONFACTORY_H" = capitals stem ++ "_JSONFACTORY_H" := by
    rw [guardName, String.append_assoc]
    rfl
  have hinclude : includeLocal (stem ++ ".h") = line ("#include \"" ++ stem ++ ".h\"") := by
    refine congrArg line (String.toList_injective ?_)
    simp
  rw [header, factory_eq_lines, hguard, hopen, hinclude, guarded]
  simp only [headerCode, lines_append, lines_cons, lines_nil, String.append_empty,
    String.append_assoc]
  rfl

lemma source?_eq_lines {m : Model} {functions : List DecodeFunction} {entry : DecodeFunction}
    (hfunctions : parseFunctions? m = some functions) (hentry : entryFunction? m = some entry)
    (stem : String) : source? m stem = some (lines (sourceCode m functions entry stem)) := by
  rw [source?, hfunctions, hentry]
  refine congrArg some (String.toList_injective ?_)
  simp [parseFunctionsText_eq_lines, DecodeFunction.text_eq_lines, includes_eq_lines, includeSystem,
    includeLocal, openNamespace, closeNamespace, emptyLine, opening, closing, sourceCode,
    lines_append, lines_cons, line]

/-- The files of a model consist of the code of its functions. -/
theorem files?_eq_code {m : Model} {functions : List DecodeFunction} {entry : DecodeFunction}
    (hfunctions : parseFunctions? m = some functions) (hentry : entryFunction? m = some entry)
    (stem : String) :
    files? m stem = some [.ofLines (stem ++ "jsonfactory.h") (headerCode m stem),
      .ofLines (stem ++ "jsonfactory.cpp") (sourceCode m functions entry stem)] := by
  rw [files?, source?_eq_lines hfunctions hentry, header_eq_lines]
  rfl

end BeanForge.Decoder
