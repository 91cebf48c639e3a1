/-!
# Rejections

What can be wrong with a document, in words, and where it was met.
-/
namespace BeanForge

/-- What can be wrong with a document. -/
inductive Fault where
  /-- A field of the document is missing. -/
  | missingField (field : String)
  /-- A field of a declaration is missing. -/
  | missingPropertyField (field : String)
  /-- The source is not one that values can be decoded from. -/
  | unsupportedSource (source : String)
  /-- Wrappers are asked for although the document forbids them. -/
  | wrappersForbidden
  /-- An earlier declaration of the scope has the same name. -/
  | duplicateName (name : String)
  /-- The access mode is unknown. -/
  | unknownAccess (access : String)
  /-- The path starts with a slash. -/
  | leadingSlash
  /-- The path is empty or has an empty segment. -/
  | emptySegment (path : String)
  /-- No JSON value can be converted to the type. -/
  | notConvertible (type : String)
  /-- An earlier declaration of the scope declares a class of the same name. -/
  | duplicateClass (className : String)
  deriving DecidableEq, Repr

/-- A word in the double quotes of a message. -/
def quotedWord (word : String) : String :=
  "\"" ++ word ++ "\""

def Fault.message : Fault → String
  | missingField field => quotedWord field ++ " is a mandatory field"
  | missingPropertyField field => quotedWord field ++ " is a mandatory property field"
  | unsupportedSource source =>
    "only json \"source\" is currently supported, got " ++ quotedWord source
  | wrappersForbidden => "cannot generate Qt beans with \"no_qt\""
  | duplicateName name => "name " ++ quotedWord name ++ " is already defined"
  | unknownAccess access => "\"access\" must be c, r or rw, got " ++ quotedWord access
  | leadingSlash => "\"json_path\" must not start with a /"
  | emptySegment path =>
    "\"json_path\" " ++ quotedWord path ++ " is empty or contains an empty segment"
  | notConvertible type => "type " ++ quotedWord type ++ " cannot be handled by JSON"
  | duplicateClass className => "type " ++ quotedWord className ++ " is already defined"

structure Rejection where
  location : String
  fault : Fault
  deriving DecidableEq, Repr

def Rejection.message (r : Rejection) : String :=
  "schema check failed at " ++ r.location ++ ": " ++ r.fault.message

end BeanForge
