import BeanForge.Decoder
/-!
# The code of decoders

What stands in the header and in the source of a decoder, line by line. As for value classes, the
rules are stated apart from the renderer and give the whole text of each form.
-/
namespace BeanForge.Decoder

def Argument.code (a : Argument) : String :=
  if a.moved then "std::move(" ++ a.source ++ ")" else a.source

/-- The lines that call a parse function and return nothing if it does. -/
def callCode (function object : String) : List String :=
  ["        const auto json_parsed = " ++ function ++ "(" ++ object ++ ".toObject());",
    "        if (!json_parsed) \x7b", "            return std::nullopt;", "        \x7d"]

def Statement.code : Statement → List String
  | bind object parent key =>
    ["    const QJsonObject " ++ object ++ " \x7b" ++ parent ++ ".value(" ++ keyText key ++
      ").toObject()\x7d;"]
  | require object key =>
    ["    if (!" ++ object ++ ".contains(" ++ keyText key ++ ")) \x7b",
      "        return std::nullopt;", "    \x7d"]
  | scalar type field object key conversion =>
    ["    " ++ type ++ " " ++ field ++ " \x7b" ++ object ++ ".value(" ++ keyText key ++ ")." ++
      conversion ++ "()\x7d;"]
  | declareDefault type field | declareList type field =>
    ["    " ++ type ++ " " ++ field ++ " \x7b\x7d;"]
  | appendScalars field object key conversion =>
    ["    for (const QJsonValue &json_value : " ++ object ++ ".value(" ++ keyText key ++
        ").toArray()) \x7b",
      "        " ++ field ++ ".push_back(json_value." ++ conversion ++ "());", "    \x7d"]
  | parse field object key function =>
    ["    if (" ++ object ++ ".contains(" ++ keyText key ++ ")) \x7b"] ++
    callCode function (object ++ ".value(" ++ keyText key ++ ")") ++
    ["        " ++ field ++ " = *json_parsed;", "    \x7d"]
  | appendParsed field object key function =>
    ["    for (const QJsonValue &json_value : " ++ object ++ ".value(" ++ keyText key ++
        ").toArray()) \x7b"] ++
    callCode function "json_value" ++
    ["        " ++ field ++ ".push_back(*json_parsed);", "    \x7d"]
  | construct type [] => ["    return " ++ type ++ " \x7b\x7d;"]
  | construct type (a :: rest) =>
    ["    return " ++ type ++ " \x7b",
      "        " ++ Text.join ",\n        " ((a :: rest).map Argument.code), "    \x7d;"]

def DecodeFunction.code (f : DecodeFunction) : List String :=
  ["std::optional<" ++ f.result ++ "> " ++ f.name ++ "(const QJsonObject &json_root)", "\x7b"] ++
  f.body.flatMap Statement.code ++ ["\x7d"]

def factoryCode (m : Model) : List String :=
  ["class " ++ m.root.name ++ "JsonFactory", "\x7b", "public:",
    "    static std::optional<" ++ m.root.name ++ "> fromJson(const QJsonObject &json_root);",
    "\x7d;"]

def headerCode (m : Model) (stem : String) : List String :=
  ["#ifndef " ++ Text.capitals stem ++ "_JSONFACTORY_H",
    "#define " ++ Text.capitals stem ++ "_JSONFACTORY_H", "", "#include <optional>",
    "#include <QJsonObject>", "#include \"" ++ stem ++ ".h\"", "",
    "namespace " ++ m.root.moduleName ++ " \x7b", ""] ++
  factoryCode m ++
  ["", "\x7d // namespace " ++ m.root.moduleName, "",
    "#endif // " ++ Text.capitals stem ++ "_JSONFACTORY_H"]

/-- The parse functions in a namespace of their own, which is left out if there are none. -/
def functionsCode : List DecodeFunction → List String
  | [] => []
  | f :: fs =>
    ["namespace \x7b", ""] ++ (f :: fs).flatMap (fun f => f.code ++ [""]) ++
      ["\x7d // namespace", ""]

def sourceCode (m : Model) (functions : List DecodeFunction) (entry : DecodeFunction)
    (stem : String) : List String :=
  ["#include \"" ++ stem ++ "jsonfactory.h\""] ++
  m.includes.map (fun header => "#include <" ++ header ++ ">") ++
  ["#include <QJsonValue>", "", "namespace " ++ m.root.moduleName ++ " \x7b", ""] ++
  functionsCode functions ++ entry.code ++ ["", "\x7d // namespace " ++ m.root.moduleName]

end BeanForge.Decoder
