import BeanForge.Decoder.Key
import BeanForge.Decoding.Data
/-!
# Decoding by the generated code

What the statements of decoding functions do, one after the other. Functions are defined in
order, and a function may call those before it. A name that is not defined, or not as it is
used, leaves a run stuck. A key is what the expression for it denotes.
-/
namespace BeanForge.Decoding

open Decoder

/-- How the run of a function ends. -/
inductive Ending (β : Type) where
  /-- A name is missing or misused. -/
  | stuck
  /-- The function returns nothing. -/
  | nothing
  /-- The function returns a value. -/
  | returned (v : Value β)

/-- What a local holds. -/
inductive Local (α β : Type) where
  | object (fields : Fields α)
  | value (v : Value β)

/-- The locals of a function, the latest first. -/
abbrev Locals (α β : Type) := List (String × Local α β)

abbrev Functions (α β : Type) := List (String × (Fields α → Ending β))

variable {α β : Type}

def Locals.object (locals : Locals α β) (name : String) : Except (Ending β) (Fields α) :=
  match locals.lookup name with
  | some (.object fields) => .ok fields
  | _ => .error .stuck

def Locals.value (locals : Locals α β) (name : String) : Except (Ending β) (Value β) :=
  match locals.lookup name with
  | some (.value v) => .ok v
  | _ => .error .stuck

/-- The locals after a local has got a new value. -/
def Locals.assign (locals : Locals α β) (name : String) (v : Value β) :
    Except (Ending β) (Locals α β) :=
  (locals.value name).map fun _ => (name, .value v) :: locals

/-- The locals after a value was appended to the list in a local. -/
def Locals.append (locals : Locals α β) (name : String) (v : Value β) :
    Except (Ending β) (Locals α β) :=
  match locals.value name with
  | .ok (.list items) => locals.assign name (.list (items ++ [v]))
  | _ => .error .stuck

/-- The value that a function returns; the caller ends with the function if there is none. -/
def call (functions : Functions α β) (name : String) (o : Fields α) :
    Except (Ending β) (Value β) :=
  match functions.lookup name with
  | some f =>
    match f o with
    | .returned v => .ok v
    | ending => .error ending
  | none => .error .stuck

/-- What an object holds under the key that the expression for a declared key denotes. -/
def lookUp (o : Fields α) (key : String) : Except (Ending β) (Option (Data α)) :=
  match denotedKey? (keyText key) with
  | some denoted => .ok (o.lookup denoted)
  | none => .error .stuck

/-- The locals after a statement, or the way in which it ends the function. -/
def step (C : Conversion α β) (functions : Functions α β) (locals : Locals α β) :
    Statement → Except (Ending β) (Locals α β)
  | .bind object parent key => do
    let o ← locals.object parent
    return (object, .object (asObject (← lookUp o key))) :: locals
  | .require object key => do
    let o ← locals.object object
    if (← lookUp o key).isSome then return locals else .error .nothing
  | .scalar _ field object key conversion => do
    let o ← locals.object object
    return (field, .value (.scalar (C.convert conversion (← lookUp o key)))) :: locals
  | .declareDefault type field => return (field, .value (.default type)) :: locals
  | .declareList _ field => return (field, .value (.list [])) :: locals
  | .appendScalars field object key conversion => do
    let o ← locals.object object
    (asArray (← lookUp o key)).foldlM
      (fun locals v => locals.append field (.scalar (C.convert conversion (some v)))) locals
  | .parse field object key function => do
    let o ← locals.object object
    match ← lookUp o key with
    | none => return locals
    | some v => locals.assign field (← call functions function (asObject (some v)))
  | .appendParsed field object key function => do
    let o ← locals.object object
    (asArray (← lookUp o key)).foldlM
      (fun locals v => do
        locals.append field (← call functions function (asObject (some v)))) locals
  | .construct type arguments => do
    let values ← arguments.mapM fun a => locals.value a.source
    .error (.returned (.record type values))

/-- How a body ends that is given an object. A body that runs off its end is stuck. -/
def runBody (C : Conversion α β) (functions : Functions α β) (body : List Statement)
    (o : Fields α) : Ending β :=
  match body.foldlM (step C functions) [(rootLocal, .object o)] with
  | .ok _ => .stuck
  | .error ending => ending

/-- The functions after one more is defined. -/
def define (C : Conversion α β) (functions : Functions α β) (f : DecodeFunction) :
    Functions α β :=
  (f.name, runBody C functions f.body) :: functions

/-- How the factory of a model ends on an object; stuck if the model has no factory. -/
def runModel (C : Conversion α β) (m : Model) (o : Fields α) : Ending β :=
  match parseFunctions? m, entryFunction? m with
  | some fs, some entry => runBody C (fs.foldl (define C) []) entry.body o
  | _, _ => .stuck

end BeanForge.Decoding
