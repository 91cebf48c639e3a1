import BeanForge.Decoding.OfCode
import BeanForge.Proofs.Decoder.Keys
import BeanForge.Proofs.Fallible
import Mathlib.Data.List.Forall2
/-!
# What statements do to locals

`Stores` says what the statements that read a property have to do: put its value in one local and
leave all others as they are, or end the function with nothing. The loops over arrays and the
presence checks are treated here for any locals; no schema is involved.
-/
namespace BeanForge.Decoding

open Decoder

variable {α β : Type}

/-- The locals after several statements, or the way in which one ends the function. -/
def runAll (C : Conversion α β) (functions : Functions α β) (locals : Locals α β)
    (body : List Statement) : Except (Ending β) (Locals α β) :=
  body.foldlM (step C functions) locals

section

variable (C : Conversion α β) (functions : Functions α β) (locals : Locals α β)

@[simp] lemma runAll_nil : runAll C functions locals [] = .ok locals := rfl

lemma runAll_cons (s : Statement) (body : List Statement) :
    runAll C functions locals (s :: body) =
      step C functions locals s >>= fun locals => runAll C functions locals body := rfl

lemma runAll_singleton (s : Statement) :
    runAll C functions locals [s] = step C functions locals s :=
  bind_pure _

lemma runAll_append (body more : List Statement) :
    runAll C functions locals (body ++ more) =
      runAll C functions locals body >>= fun locals => runAll C functions locals more :=
  List.foldlM_append

lemma runBody_eq (body : List Statement) (o : Fields α) :
    runBody C functions body o =
      match runAll C functions [(rootLocal, .object o)] body with
      | .ok _ => .stuck
      | .error ending => ending := rfl

end

/-- Locals that differ from others at most in one. -/
def Locals.SameBut (field : String) (locals locals' : Locals α β) : Prop :=
  ∀ name, name ≠ field → locals'.lookup name = locals.lookup name

/-- A run that puts a value in a local, or ends the function with nothing if there is no value. -/
def Stores (field : String) (locals : Locals α β) (found : Option (Value β))
    (run : Except (Ending β) (Locals α β)) : Prop :=
  match found with
  | none => run = .error .nothing
  | some v => ∃ locals', run = .ok locals' ∧ locals'.lookup field = some (.value v) ∧
      locals.SameBut field locals'

/-- What a function that finds a value or nothing returns. -/
def Ending.ofOption (found : Option (Value β)) : Ending β :=
  found.elim .nothing .returned

/-- What the caller of such a function goes on with. -/
def orNothing (found : Option (Value β)) : Except (Ending β) (Value β) :=
  found.elim (.error .nothing) .ok

namespace Locals

lemma object_eq_ok_iff {locals : Locals α β} {name : String} {o : Fields α} :
    locals.object name = .ok o ↔ locals.lookup name = some (.object o) := by
  unfold Locals.object
  cases locals.lookup name with
  | none => simp
  | some l => cases l <;> simp

lemma value_eq_ok_iff {locals : Locals α β} {name : String} {v : Value β} :
    locals.value name = .ok v ↔ locals.lookup name = some (.value v) := by
  unfold Locals.value
  cases locals.lookup name with
  | none => simp
  | some l => cases l <;> simp

lemma SameBut.trans {field : String} {a b c : Locals α β} (hab : a.SameBut field b)
    (hbc : b.SameBut field c) : a.SameBut field c :=
  fun name hname => (hbc name hname).trans (hab name hname)

lemma sameBut_cons (field : String) (l : Local α β) (locals : Locals α β) :
    locals.SameBut field ((field, l) :: locals) := by
  intro name hname
  rw [List.lookup_cons, beq_false_of_ne hname]

lemma lookup_cons_of_ne {name field : String} (h : name ≠ field) (l : Local α β)
    (locals : Locals α β) : List.lookup name ((field, l) :: locals) = locals.lookup name :=
  sameBut_cons field l locals name h

lemma lookup_cons_self (field : String) (l : Local α β) (locals : Locals α β) :
    List.lookup field ((field, l) :: locals) = some l := by
  simp

end Locals

open Locals

/-- A new local holds its value, whatever was there before. -/
lemma stores_declare (field : String) (v : Value β) (locals : Locals α β) :
    Stores field locals (some v) (.ok ((field, .value v) :: locals)) :=
  ⟨_, rfl, lookup_cons_self field _ locals, sameBut_cons field _ locals⟩

lemma Stores.of_sameBut {field : String} {a b : Locals α β} {found : Option (Value β)}
    {run : Except (Ending β) (Locals α β)} (h : Stores field b found run)
    (hab : a.SameBut field b) : Stores field a found run := by
  cases found with
  | none => exact h
  | some v =>
    obtain ⟨locals', hrun, hv, hsame⟩ := h
    exact ⟨locals', hrun, hv, hab.trans hsame⟩

/-- Assigning to a declared local stores the value. -/
lemma stores_assign {field : String} {locals : Locals α β} {old : Value β}
    (h : locals.lookup field = some (.value old)) (v : Value β) :
    Stores field locals (some v) (locals.assign field v) := by
  have hassign : locals.assign field v = .ok ((field, .value v) :: locals) := by
    rw [Locals.assign, value_eq_ok_iff.mpr h]
    rfl
  rw [hassign]
  exact stores_declare field v locals

lemma stores_append {field : String} {locals : Locals α β} {items : List (Value β)}
    (h : locals.lookup field = some (.value (.list items))) (v : Value β) :
    Stores field locals (some (.list (items ++ [v]))) (locals.append field v) := by
  rw [Locals.append, value_eq_ok_iff.mpr h]
  exact stores_assign h _

lemma lookUp_eq (o : Fields α) (key : String) :
    lookUp o key = (.ok (o.lookup (denoted key)) : Except (Ending β) (Option (Data α))) := by
  rw [lookUp, denotedKey?_eq_some_denoted]

/-- A function that is defined is called by its name. -/
lemma call_eq_orNothing {functions : Functions α β} {name : String} {f : Fields α → Ending β}
    (hf : functions.lookup name = some f) {o : Fields α} {found : Option (Value β)}
    (hfound : f o = .ofOption found) : call functions name o = orNothing found := by
  rw [call, hf]
  simp only [hfound]
  cases found <;> rfl

/-- A loop appends what is found for each element, up to one for which nothing is found. -/
theorem stores_foldlM {field : String} (decode : Data α → Option (Value β))
    (items : List (Data α)) {done : List (Value β)} {locals : Locals α β}
    (h : locals.lookup field = some (.value (.list done))) :
    Stores field locals ((items.mapM decode).map fun vs => .list (done ++ vs))
      (items.foldlM (fun locals v => orNothing (decode v) >>= locals.append field) locals) := by
  induction items generalizing done locals with
  | nil => exact ⟨locals, rfl, by simpa using h, fun _ _ => rfl⟩
  | cons item items ih =>
    rw [List.foldlM_cons, List.mapM_cons]
    cases hv : decode item with
    | none => rfl
    | some v =>
      obtain ⟨locals', happend, hlist, hsame⟩ := stores_append h v
      have hrest := (ih hlist).of_sameBut hsame
      have hrun : orNothing (some v) >>= locals.append field = .ok locals' := happend
      rw [hrun, Fallible.ok_bind]
      cases hvs : items.mapM decode with
      | none => simpa [hvs] using hrest
      | some vs => simpa [hvs] using hrest

section

variable (C : Conversion α β) (functions : Functions α β) {locals : Locals α β}
  {object : String} {o : Fields α}

/-- A key that is required is present, or the function ends with nothing. -/
lemma runAll_presence (h : locals.lookup object = some (.object o)) (optional : Bool)
    (key : String) :
    runAll C functions locals (if optional then [] else [.require object key]) =
      if optional ∨ (o.lookup (denoted key)).isSome then .ok locals else .error .nothing := by
  cases optional with
  | true => simp
  | false =>
    have hstep : step C functions locals (.require object key) =
        if (o.lookup (denoted key)).isSome then .ok locals else .error .nothing := by
      rw [step, object_eq_ok_iff.mpr h, Fallible.ok_bind, lookUp_eq]
      rfl
    rw [if_neg (by simp), runAll_singleton, hstep]
    by_cases hkey : (o.lookup (denoted key)).isSome <;> simp [hkey]

/-- Behind a presence check, what is read may be taken to be as demanded. -/
lemma stores_presence (h : locals.lookup object = some (.object o)) (optional : Bool)
    (key : String) {field : String} {found : Option (Value β)} {reads : List Statement}
    (hreads : Stores field locals found (runAll C functions locals reads)) :
    Stores field locals (if optional ∨ (o.lookup (denoted key)).isSome then found else none)
      (runAll C functions locals
        ((if optional then [] else [.require object key]) ++ reads)) := by
  rw [runAll_append, runAll_presence C functions h]
  by_cases hkey : optional ∨ (o.lookup (denoted key)).isSome
  · simpa only [if_pos hkey, Fallible.ok_bind] using hreads
  · simp only [if_neg hkey, Fallible.error_bind]
    rfl

lemma stores_scalar (h : locals.lookup object = some (.object o))
    (type field key conversion : String) :
    Stores field locals (some (.scalar (C.convert conversion (o.lookup (denoted key)))))
      (runAll C functions locals [.scalar type field object key conversion]) := by
  rw [runAll_singleton, step, object_eq_ok_iff.mpr h, Fallible.ok_bind, lookUp_eq]
  exact stores_declare field _ locals

lemma object_declared (h : locals.lookup object = some (.object o)) {field : String}
    (hfield : object ≠ field) (v : Value β) :
    Locals.object ((field, .value v) :: locals) object = .ok o := by
  rw [object_eq_ok_iff, lookup_cons_of_ne hfield, h]

/-- A list is declared empty and then filled by a loop. -/
lemma stores_loop {field : String} {s : Statement} (type : String)
    (decode : Data α → Option (Value β)) (items : List (Data α))
    (hstep : step C functions ((field, .value (.list [])) :: locals) s =
      items.foldlM (fun (locals : Locals α β) v => orNothing (decode v) >>= locals.append field)
        ((field, .value (.list [])) :: locals)) :
    Stores field locals ((items.mapM decode).map .list)
      (runAll C functions locals [.declareList type field, s]) := by
  have hloop := stores_foldlM decode items (lookup_cons_self field (.value (.list [])) locals)
  rw [runAll_cons, step, pure_bind, runAll_singleton, hstep]
  exact hloop.of_sameBut (sameBut_cons field _ locals)

/-- An array of plain values is read as the list of its converted elements. -/
lemma stores_scalars (h : locals.lookup object = some (.object o)) {field : String}
    (hfield : object ≠ field) (type key conversion : String) :
    Stores field locals
      (some (.list ((asArray (o.lookup (denoted key))).map fun v =>
        .scalar (C.convert conversion (some v)))))
      (runAll C functions locals
        [.declareList type field, .appendScalars field object key conversion]) := by
  let convert : Data α → Value β := fun v => .scalar (C.convert conversion (some v))
  have hall : (asArray (o.lookup (denoted key))).mapM (fun v => some (convert v)) =
      some ((asArray (o.lookup (denoted key))).map convert) :=
    List.mapM_pure
  have hloop := @stores_loop _ _ C functions locals field
    (.appendScalars field object key conversion) type (fun v => some (convert v))
    (asArray (o.lookup (denoted key)))
    (by rw [step, object_declared h hfield, Fallible.ok_bind, lookUp_eq]; rfl)
  rwa [hall] at hloop

/-- An array of objects is read as the list of what a function parses from them. -/
lemma stores_allParsed (h : locals.lookup object = some (.object o)) {field : String}
    (hfield : object ≠ field) (type key : String) {function : String}
    {decode : Fields α → Option (Value β)}
    (hcall : ∀ o, call functions function o = orNothing (decode o)) :
    Stores field locals
      (((asArray (o.lookup (denoted key))).mapM fun v => decode (asObject (some v))).map .list)
      (runAll C functions locals
        [.declareList type field, .appendParsed field object key function]) := by
  refine stores_loop C functions type _ (asArray (o.lookup (denoted key))) ?_
  rw [step, object_declared h hfield, Fallible.ok_bind, lookUp_eq]
  simp only [hcall]
  rfl

/-- A value that is parsed by a function is stored if it is there, and else the default stays. -/
lemma stores_parsed (h : locals.lookup object = some (.object o)) {field : String}
    (hfield : object ≠ field) (type key : String) {function : String}
    {decode : Fields α → Option (Value β)}
    (hcall : ∀ o, call functions function o = orNothing (decode o)) :
    Stores field locals
      ((o.lookup (denoted key)).elim (some (.default type)) fun v => decode (asObject (some v)))
      (runAll C functions locals
        [.declareDefault type field, .parse field object key function]) := by
  let declared : Locals α β := (field, .value (.default type)) :: locals
  have hrun : runAll C functions locals
      [.declareDefault type field, .parse field object key function] =
        (o.lookup (denoted key)).elim (.ok declared) fun v =>
          orNothing (decode (asObject (some v))) >>= declared.assign field := by
    rw [runAll_cons, step, pure_bind, runAll_singleton, step, object_declared h hfield,
      Fallible.ok_bind, lookUp_eq]
    simp only [hcall, Fallible.ok_bind]
    cases o.lookup (denoted key) <;> rfl
  rw [hrun]
  cases o.lookup (denoted key) with
  | none => exact stores_declare field (.default type) locals
  | some v =>
    simp only [Option.elim]
    cases hv : decode (asObject (some v)) with
    | none => rfl
    | some w =>
      have hassigned := stores_assign (lookup_cons_self field (.value (.default type)) locals) w
      exact hassigned.of_sameBut (sameBut_cons field _ locals)

end

end BeanForge.Decoding
