import BeanForge.Model
import BeanForge.SourceText
/-!
# Object wrappers

The header and the source of the wrappers of a value class. Every class of the model has a
wrapper of its own, and none is nested in another. A wrapper owns a copy of the value and one
child wrapper for each property that is a single class; lists of classes are shown as plain
values. Setting a property, or replacing the whole value, emits the change signals of exactly
the properties whose value moved.
-/
namespace BeanForge.Wrapper

open Text SourceText

/-- The name of the wrapper of a class. -/
def name (c : ClassModel) : String :=
  c.name ++ "Object"

/-- The wrapped class as written anywhere. -/
def beanType (c : ClassModel) : String :=
  "::" ++ c.moduleName ++ "::" ++ c.nestedName

/-- Whether a property is held as a child wrapper. -/
def isChild (m : Member) : Bool :=
  m.kind != .list && m.qt.any (·.isObject)

/-- Whether a property has a change signal. -/
def notifies (m : Member) : Bool :=
  !isChild m && m.access != .const

/-- The type in which a property is shown. -/
def shownType (m : Member) : String :=
  match m.qt with
  | some q => if m.kind = .list then m.nestedMemberType else q.type
  | none => m.nestedMemberType

/-- The setter of a property in its wrapper: child wrappers have none. -/
def setter? (m : Member) : Option String :=
  if isChild m then none else m.setter

def signal (property : String) : String :=
  property ++ "Changed"

/-- The parameter of a property's setter. -/
def parameter (m : Member) : Parameter :=
  ⟨m.nestedMemberType ++ (if m.kind = .simple then " " else " &&"), m.name⟩

/-- A property as the meta-object system sees it. -/
structure Exposed where
  type : String
  property : String
  read : String
  write : Option String
  /-- The property whose signal announces a change; a property without is constant. -/
  notify : Option String
  deriving DecidableEq, Repr

/-- A member function of a wrapper. -/
inductive Method where
  /-- The constructor for a default value. -/
  | construct
  /-- The constructor that takes a value over. -/
  | adopt
  | getter (result name : String)
  | setter (name : String) (parameter : Parameter)
  /-- The value with what the children hold. -/
  | data
  /-- Replaces the value. -/
  | update
  deriving DecidableEq, Repr

structure Child where
  property : String
  wrapper : String
  getter : String
  deriving DecidableEq, Repr

/-- Where one part of the whole value is taken from. -/
inductive Part where
  /-- The child wrapper of a property. -/
  | child (property : String)
  /-- A getter of the owned value. -/
  | value (getter : String)
  deriving DecidableEq, Repr

structure Watched where
  getter : String
  property : String
  deriving DecidableEq, Repr

/-- The body of a member function. -/
inductive Body where
  /-- Takes over a default value. -/
  | useDefault
  /-- Takes the parameter over and creates the children. -/
  | takeOver (children : List Child)
  /-- Returns a child. -/
  | showChild (property : String)
  /-- Returns what a getter of the owned value returns. -/
  | showValue (getter : String)
  /-- Does nothing if the getter already returns the parameter; else calls the setter of the
  owned value with an expression and emits the property's signal. -/
  | change (getter setter property value : String)
  /-- Constructs a value from its parts. -/
  | collect (parts : List Part)
  /-- Replaces the owned value, updates the children, and emits the signals of the properties
  whose getter returns something else than before. -/
  | replace (children : List Child) (watched : List Watched)
  deriving DecidableEq, Repr

structure Definition where
  wrapper : String
  bean : String
  method : Method
  body : Body
  deriving DecidableEq, Repr

def exposed (c : ClassModel) : List Exposed :=
  c.members.map fun m =>
    ⟨shownType m, m.name, m.getter, setter? m, if notifies m then some m.name else none⟩

/-- The getter of a property and its setter, if it has one. -/
def accessors (m : Member) : List Method :=
  .getter (shownType m) m.getter :: ((setter? m).map fun s => .setter s (parameter m)).toList

/-- The member functions that the header declares. -/
def declared (c : ClassModel) : List Method :=
  [.construct, .adopt] ++ c.members.flatMap accessors ++ [.data, .update]

/-- The properties that a wrapper has signals for. -/
def signals (c : ClassModel) : List String :=
  (c.members.filter notifies).map (·.name)

/-- The data members that hold children: their types and properties. -/
def childFields (c : ClassModel) : List (String × String) :=
  (c.members.filter isChild).map fun m => (shownType m, m.name)

def children (c : ClassModel) : List Child :=
  (c.members.filter isChild).map fun m =>
    ⟨m.name, (m.qt.bind (·.wrapper)).getD "", m.getter⟩

/-- The parts of the value of a wrapper, one for each property. -/
def valueParts (c : ClassModel) : List Part :=
  c.members.map fun m => if isChild m then .child m.name else .value m.getter

/-- The properties that are compared when the value is replaced. -/
def watched (c : ClassModel) : List Watched :=
  (c.members.filter notifies).map fun m => ⟨m.getter, m.name⟩

def accessorBodies (m : Member) : List (Method × Body) :=
  (.getter (shownType m) m.getter, if isChild m then .showChild m.name else .showValue m.getter) ::
    ((setter? m).map fun s =>
      (.setter s (parameter m), .change m.getter s m.name m.stored)).toList

/-- The member functions of a wrapper with their bodies. -/
def bodies (c : ClassModel) : List (Method × Body) :=
  [(.construct, .useDefault), (.adopt, .takeOver (children c))] ++
    c.members.flatMap accessorBodies ++
    [(.data, .collect (valueParts c)), (.update, .replace (children c) (watched c))]

/-- The member functions that the source defines for a class. -/
def definitions (c : ClassModel) : List Definition :=
  (bodies c).map fun (f, b) => ⟨name c, beanType c, f, b⟩

def Exposed.text (e : Exposed) : String :=
  line <|
    "    Q_PROPERTY(" ++ e.type ++ " " ++ e.property ++ " READ " ++ e.read ++
    e.write.elim "" (" WRITE " ++ ·) ++
    e.notify.elim " CONSTANT" (fun p => " NOTIFY " ++ signal p) ++ ")"

/-- The line that declares a member function. -/
def declareMethod (wrapper bean : String) : Method → String
  | .construct => line ("    explicit " ++ wrapper ++ "(QObject *parent = nullptr);")
  | .adopt =>
    line ("    explicit " ++ wrapper ++ "(" ++ bean ++ " &&data, QObject *parent = nullptr);")
  | .getter result name => line ("    " ++ result ++ " " ++ name ++ "() const;")
  | .setter name p => line ("    void " ++ name ++ "(" ++ p.text ++ ");")
  | .data => line ("    " ++ bean ++ " data() const;")
  | .update => line ("    void update(" ++ bean ++ " &&data);")

def declaration (c : ClassModel) : String :=
  lines ["class " ++ name c ++ " : public QObject", opening, "    Q_OBJECT"] ++
  String.join ((exposed c).map Exposed.text) ++
  line "public:" ++
  String.join ((declared c).map (declareMethod (name c) (beanType c))) ++
  (if (signals c).isEmpty then "" else line "Q_SIGNALS:") ++
  String.join ((signals c).map fun p => line ("    void " ++ signal p ++ "();")) ++
  line "private:" ++
  line ("    " ++ beanType c ++ " m_data " ++ braced "" ++ ";") ++
  String.join ((childFields c).map fun (type, p) =>
    line ("    " ++ type ++ " m_" ++ p ++ " " ++ braced "nullptr" ++ ";")) ++
  line (closing ++ ";")

def Definition.heading (d : Definition) : String :=
  let owner := d.wrapper ++ "::"
  match d.method with
  | .construct => line (owner ++ d.wrapper ++ "(QObject *parent)")
  | .adopt => line (owner ++ d.wrapper ++ "(" ++ d.bean ++ " &&data, QObject *parent)")
  | .getter result name => line (result ++ " " ++ owner ++ name ++ "() const")
  | .setter name p => line ("void " ++ owner ++ name ++ "(" ++ p.text ++ ")")
  | .data => line (d.bean ++ " " ++ owner ++ "data() const")
  | .update => line ("void " ++ owner ++ "update(" ++ d.bean ++ " &&data)")

def Part.text : Part → String
  | child p => "m_" ++ p ++ "->data()"
  | value g => "m_data." ++ g ++ "()"

/-- The line that emits the signal of a property. -/
def emit (p : String) : String :=
  line ("        Q_EMIT " ++ signal p ++ "();")

/-- The lines of a body, initializers included. -/
def Body.text (wrapper bean : String) : Body → String
  | useDefault => lines ["    : " ++ wrapper ++ "(" ++ bean ++ "(), parent)", opening, closing]
  | takeOver cs =>
    lines ["    : QObject(parent)", "    , m_data " ++ braced "std::move(data)"] ++
    String.join (cs.map fun c =>
      line ("    , m_" ++ c.property ++ " " ++
        braced ("new " ++ c.wrapper ++ "(m_data." ++ c.getter ++ "(), this)"))) ++
    lines [opening, closing]
  | showChild p => lines [opening, "    return m_" ++ p ++ ";", closing]
  | showValue g => lines [opening, "    return m_data." ++ g ++ "();", closing]
  | change g s p value =>
    lines [opening, "    if (m_data." ++ g ++ "() == " ++ p ++ ") " ++ opening,
      "        return;", "    " ++ closing,
      "    m_data." ++ s ++ "(" ++ value ++ ");",
      "    Q_EMIT " ++ signal p ++ "();", closing]
  | collect [] => lines [opening, "    return " ++ bean ++ " " ++ braced "" ++ ";", closing]
  | collect (part :: parts) =>
    lines [opening,
      "    return " ++ bean ++ " " ++ bracedList "    " ((part :: parts).map Part.text) ++ ";",
      closing]
  | replace cs ws =>
    line opening ++
    (if ws.isEmpty then ""
      else line ("    const " ++ bean ++ " previous " ++ braced "m_data" ++ ";")) ++
    line "    m_data = std::move(data);" ++
    String.join (cs.map fun c =>
      line ("    m_" ++ c.property ++ "->update(m_data." ++ c.getter ++ "());")) ++
    String.join (ws.map fun w =>
      line ("    if (previous." ++ w.getter ++ "() != m_data." ++ w.getter ++ "()) " ++ opening) ++
      emit w.property ++ line ("    " ++ closing)) ++
    line closing

def Definition.text (d : Definition) : String :=
  d.heading ++ d.body.text d.wrapper d.bean

def namespaceName (m : Model) : String :=
  m.root.moduleName ++ "::qt"

def header (m : Model) (stem : String) : String :=
  guarded (guardName stem "OBJECT_H") <|
    includeSystem "QObject" ++ (if m.hasList then includeSystem "vector" else "") ++
    includeLocal (stem ++ ".h") ++ emptyLine ++
    openNamespace (namespaceName m) ++
    String.join (m.root.postorder.map fun c => emptyLine ++ declaration c) ++ emptyLine ++
    closeNamespace (namespaceName m)

def source (m : Model) (stem : String) : String :=
  includeLocal (stem ++ "object.h") ++ emptyLine ++
  openNamespace (namespaceName m) ++
  String.join ((m.root.postorder.flatMap definitions).map fun d => emptyLine ++ d.text) ++
  emptyLine ++ closeNamespace (namespaceName m)

def files (m : Model) (stem : String) : List OutputFile :=
  [⟨stem ++ "object.h", header m stem⟩, ⟨stem ++ "object.cpp", source m stem⟩]

end BeanForge.Wrapper
