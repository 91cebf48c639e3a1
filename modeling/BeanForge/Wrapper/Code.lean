import BeanForge.Wrapper
/-!
# The code of wrappers

What stands in the header and in the source of wrappers, line by line. As for value classes, the
rules are stated apart from the renderer and give the whole text of each form.
-/
namespace BeanForge.Wrapper

def Exposed.code (e : Exposed) : String :=
  let write := match e.write with
    | some setter => " WRITE " ++ setter
    | none => ""
  let change := match e.notify with
    | some property => " NOTIFY " ++ property ++ "Changed"
    | none => " CONSTANT"
  "    Q_PROPERTY(" ++ e.type ++ " " ++ e.property ++ " READ " ++ e.read ++ write ++ change ++ ")"

def Method.declarationCode (wrapper bean : String) : Method → List String
  | construct => ["    explicit " ++ wrapper ++ "(QObject *parent = nullptr);"]
  | adopt => ["    explicit " ++ wrapper ++ "(" ++ bean ++ " &&data, QObject *parent = nullptr);"]
  | getter result name => ["    " ++ result ++ " " ++ name ++ "() const;"]
  | setter name p => ["    void " ++ name ++ "(" ++ p.type ++ p.name ++ ");"]
  | data => ["    " ++ bean ++ " data() const;"]
  | update => ["    void update(" ++ bean ++ " &&data);"]

def declarationCode (c : ClassModel) : List String :=
  ["class " ++ name c ++ " : public QObject", "\x7b", "    Q_OBJECT"] ++
  (exposed c).map Exposed.code ++
  ["public:"] ++
  (declared c).flatMap (Method.declarationCode (name c) (beanType c)) ++
  (if (signals c).isEmpty then [] else ["Q_SIGNALS:"]) ++
  (signals c).map (fun property => "    void " ++ property ++ "Changed();") ++
  ["private:", "    " ++ beanType c ++ " m_data \x7b\x7d;"] ++
  (childFields c).map (fun (type, property) =>
    "    " ++ type ++ " m_" ++ property ++ " \x7bnullptr\x7d;") ++
  ["\x7d;"]

def headerCode (m : Model) (stem : String) : List String :=
  ["#ifndef " ++ Text.capitals stem ++ "_OBJECT_H", "#define " ++ Text.capitals stem ++ "_OBJECT_H",
    "", "#include <QObject>"] ++
  (if m.hasList then ["#include <vector>"] else []) ++
  ["#include \"" ++ stem ++ ".h\"", "", "namespace " ++ m.root.moduleName ++ "::qt \x7b"] ++
  m.root.postorder.flatMap (fun c => "" :: declarationCode c) ++
  ["", "\x7d // namespace " ++ m.root.moduleName ++ "::qt", "",
    "#endif // " ++ Text.capitals stem ++ "_OBJECT_H"]

def Method.definitionCode (wrapper bean : String) : Method → List String
  | construct => [wrapper ++ "::" ++ wrapper ++ "(QObject *parent)"]
  | adopt => [wrapper ++ "::" ++ wrapper ++ "(" ++ bean ++ " &&data, QObject *parent)"]
  | getter result name => [result ++ " " ++ wrapper ++ "::" ++ name ++ "() const"]
  | setter name p => ["void " ++ wrapper ++ "::" ++ name ++ "(" ++ p.type ++ p.name ++ ")"]
  | data => [bean ++ " " ++ wrapper ++ "::data() const"]
  | update => ["void " ++ wrapper ++ "::update(" ++ bean ++ " &&data)"]

def Part.code : Part → String
  | child property => "m_" ++ property ++ "->data()"
  | value getter => "m_data." ++ getter ++ "()"

def Body.code (wrapper bean : String) : Body → List String
  | useDefault => ["    : " ++ wrapper ++ "(" ++ bean ++ "(), parent)", "\x7b", "\x7d"]
  | takeOver children =>
    ["    : QObject(parent)", "    , m_data \x7bstd::move(data)\x7d"] ++
    children.map (fun child => "    , m_" ++ child.property ++ " \x7bnew " ++ child.wrapper ++
      "(m_data." ++ child.getter ++ "(), this)\x7d") ++
    ["\x7b", "\x7d"]
  | showChild property => ["\x7b", "    return m_" ++ property ++ ";", "\x7d"]
  | showValue getter => ["\x7b", "    return m_data." ++ getter ++ "();", "\x7d"]
  | change getter setter property value =>
    ["\x7b", "    if (m_data." ++ getter ++ "() == " ++ property ++ ") \x7b", "        return;",
      "    \x7d", "    m_data." ++ setter ++ "(" ++ value ++ ");",
      "    Q_EMIT " ++ property ++ "Changed();", "\x7d"]
  | collect [] => ["\x7b", "    return " ++ bean ++ " \x7b\x7d;", "\x7d"]
  | collect (part :: parts) =>
    ["\x7b", "    return " ++ bean ++ " \x7b",
      "        " ++ Text.join ",\n        " ((part :: parts).map Part.code), "    \x7d;", "\x7d"]
  | replace children watched =>
    ["\x7b"] ++
    (if watched.isEmpty then [] else ["    const " ++ bean ++ " previous \x7bm_data\x7d;"]) ++
    ["    m_data = std::move(data);"] ++
    children.map (fun child =>
      "    m_" ++ child.property ++ "->update(m_data." ++ child.getter ++ "());") ++
    watched.flatMap (fun w =>
      ["    if (previous." ++ w.getter ++ "() != m_data." ++ w.getter ++ "()) \x7b",
        "        Q_EMIT " ++ w.property ++ "Changed();", "    \x7d"]) ++
    ["\x7d"]

def Definition.code (d : Definition) : List String :=
  d.method.definitionCode d.wrapper d.bean ++ d.body.code d.wrapper d.bean

def sourceCode (m : Model) (stem : String) : List String :=
  ["#include \"" ++ stem ++ "object.h\"", "", "namespace " ++ m.root.moduleName ++ "::qt \x7b"] ++
  m.root.postorder.flatMap (fun c => (definitions c).flatMap fun d => "" :: d.code) ++
  ["", "\x7d // namespace " ++ m.root.moduleName ++ "::qt"]

end BeanForge.Wrapper
