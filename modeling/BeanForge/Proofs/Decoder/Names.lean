import BeanForge.Proofs.Decoder.Completeness
import Mathlib.Data.List.Nodup
import Mathlib.Data.Nat.Notation
/-!
# Names in a decoder

Object locals and parse functions carry a number that a key or class name cannot be mistaken for,
since digits end at the first underscore. So names of the same kind are equal only if their
numbers are, and locals of different kinds start differently, whatever keys and properties are
called.
-/
namespace BeanForge.Decoder

lemma toDigits_injective {i j : ℕ} (h : Nat.toDigits 10 i = Nat.toDigits 10 j) : i = j := by
  have hi := Nat.ofDigitChars_toDigits (b := 10) (n := i) (by decide) (by decide)
  have hj := Nat.ofDigitChars_toDigits (b := 10) (n := j) (by decide) (by decide)
  rw [← hi, h, hj]

/-- The number of a name is what stands before the first underscore after its lead. -/
lemma numbered_injective {lead a b : String} {i j : ℕ}
    (h : lead ++ toString i ++ "_" ++ a = lead ++ toString j ++ "_" ++ b) : i = j := by
  have hlist := congrArg String.toList h
  have hdigits : Nat.toDigits 10 i ++ '_' :: a.toList = Nat.toDigits 10 j ++ '_' :: b.toList := by
    simpa [String.append_assoc, toString, Nat.repr] using hlist
  have hsplit := congrArg (Text.splitChars '_') hdigits
  rw [Text.splitChars_append_cons Nat.underscore_not_in_toDigits,
    Text.splitChars_append_cons Nat.underscore_not_in_toDigits] at hsplit
  exact toDigits_injective (List.cons.inj hsplit).1

lemma objectLocal_injective {i j : ℕ} {key key' : String}
    (h : objectLocal i key = objectLocal j key') : i = j :=
  numbered_injective h

lemma functionName_injective {i j : ℕ} {name name' : String}
    (h : functionName i name = functionName j name') : i = j :=
  numbered_injective h

/-- Object locals go on with a digit, and so are no locals that go on with a word. -/
lemma objectLocal_ne_word {word : String} (hword : ∀ c ∈ word.toList.head?, c.isDigit = false)
    (i : ℕ) (key : String) : objectLocal i key ≠ "json_" ++ word := by
  intro h
  have hlist := congrArg String.toList h
  obtain ⟨c, cs, hcs⟩ := List.exists_cons_of_ne_nil (Nat.toDigits_ne_nil (b := 10) (n := i))
  have hdigit : c.isDigit := Nat.isDigit_of_mem_toDigits (b := 10) (n := i) (by decide) (by decide)
    (by rw [hcs]; exact List.mem_cons_self)
  have hhead : c ∈ word.toList.head? := by
    simp [objectLocal, toString, Nat.repr, hcs] at hlist
    simp [← hlist]
  rw [hword c hhead] at hdigit
  contradiction

lemma objectLocal_ne_rootLocal (i : ℕ) (key : String) : objectLocal i key ≠ rootLocal :=
  have hroot : ∀ c ∈ "root".toList.head?, c.isDigit = false := by simp
  objectLocal_ne_word hroot i key

lemma fieldLocal_ne_objectLocal (name : String) (i : ℕ) (key : String) :
    fieldLocal name ≠ objectLocal i key := by
  intro h
  simpa [fieldLocal, objectLocal] using congrArg String.toList h

lemma fieldLocal_ne_rootLocal (name : String) : fieldLocal name ≠ rootLocal := by
  intro h
  simpa [fieldLocal, rootLocal] using congrArg String.toList h

lemma fieldLocal_injective {name name' : String} (h : fieldLocal name = fieldLocal name') :
    name = name' := by
  simpa [fieldLocal] using h

/-- Names that are equal only if their numbers are do not repeat when things are numbered. -/
lemma nodup_numbered {γ : Type} (xs : List γ) (name : ℕ → γ → String)
    (hname : ∀ i j x y, name i x = name j y → i = j) :
    (xs.zipIdx.map fun p => name p.2 p.1).Nodup := by
  have hindices : (xs.zipIdx.map Prod.snd).Nodup := by
    rw [List.zipIdx_map_snd]
    exact List.nodup_range'
  rw [List.Nodup, List.pairwise_map] at hindices ⊢
  exact hindices.imp fun hne heq => hne (hname _ _ _ _ heq)

/-- The object locals of a class are different from each other. -/
theorem nodup_locals_objectTable (c : ClassModel) : ((objectTable c).map Prod.snd).Nodup := by
  have hobjects := nodup_numbered (steps c) (fun i l => objectLocal i l.key)
    (fun _ _ _ _ => objectLocal_injective)
  have hroot : rootLocal ∉ (steps c).zipIdx.map fun p => objectLocal p.2 p.1.key := by
    intro hmem
    obtain ⟨p, _, hp⟩ := List.mem_map.mp hmem
    exact objectLocal_ne_rootLocal _ _ hp
  rw [objectTable, List.map_cons, List.map_map]
  exact List.nodup_cons.mpr ⟨hroot, hobjects⟩

/-- The parse functions of a model are different from each other. -/
theorem nodup_names_functionTable (classes : List ClassModel) :
    ((functionTable classes).map Prod.snd).Nodup := by
  have hnames := nodup_numbered classes (fun i c => functionName i c.name)
    (fun _ _ _ _ => functionName_injective)
  simpa [functionTable, Function.comp_def] using hnames

lemma mem_of_lastOf {κ ν : Type} [BEq κ] [LawfulBEq κ] {table : List (κ × ν)} {key : κ} {v : ν}
    (h : lastOf table key = some v) : (key, v) ∈ table := by
  obtain ⟨before, after, htable, _⟩ := List.lookup_eq_some_iff.mp h
  rw [← List.mem_reverse, htable]
  simp

/-- A name stands for one key only. -/
lemma key_eq_of_lastOf {κ ν : Type} [BEq κ] [LawfulBEq κ] {table : List (κ × ν)}
    (hnodup : (table.map Prod.snd).Nodup) {a b : κ} {v : ν} (ha : lastOf table a = some v)
    (hb : lastOf table b = some v) : a = b := by
  have heq : ((a, v) : κ × ν) = (b, v) :=
    List.inj_on_of_nodup_map hnodup (mem_of_lastOf ha) (mem_of_lastOf hb) rfl
  exact (Prod.mk.inj heq).1

end BeanForge.Decoder
