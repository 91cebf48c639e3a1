import BeanForge.Json.Reader
import BeanForge.Text.Indent
import Mathlib.Tactic.Lemma
import Mathlib.Tactic.SplitIfs
/-!
# Reading what was written

The text of a JSON value is read as this value, whatever its texts contain. Each sign that is
written ends where the next one starts, so that a value is read back in front of any other text;
`ReadsBack` says so for values, for the rest of an array and for the rest of an object at once, and
is shown by induction on the fuel of the reader, for which the length of the text is enough.
-/
namespace BeanForge.Json

lemma codeUnit?_control :
    ∀ n < 0x20, codeUnit? '0' '0' (hexDigit (n / 16)) (hexDigit n) = some n := by
  decide

/-- The three ways in which a character is written. -/
lemma escape_cases (c : Char) :
    (∃ d, d ≠ 'u' ∧ simpleEscape? d = some c ∧ escape c = ['\\', d]) ∨
    (c.toNat < 0x20 ∧
      escape c = ['\\', 'u', '0', '0', hexDigit (c.toNat / 16), hexDigit c.toNat]) ∨
    (c ≠ '"' ∧ c ≠ '\\' ∧ 0x20 ≤ c.toNat ∧ escape c = [c]) := by
  unfold escape
  split_ifs with hquote hslash hn hr ht hb hf hcontrol
  · exact .inl ⟨'"', by decide, by rw [hquote]; rfl, rfl⟩
  · exact .inl ⟨'\\', by decide, by rw [hslash]; rfl, rfl⟩
  · exact .inl ⟨'n', by decide, by rw [hn]; rfl, rfl⟩
  · exact .inl ⟨'r', by decide, by rw [hr]; rfl, rfl⟩
  · exact .inl ⟨'t', by decide, by rw [ht]; rfl, rfl⟩
  · exact .inl ⟨'b', by decide, by rw [hb]; rfl, rfl⟩
  · exact .inl ⟨'f', by decide, by rw [hf]; rfl, rfl⟩
  · exact .inr (.inl ⟨hcontrol, rfl⟩)
  · exact .inr (.inr ⟨hquote, hslash, Nat.le_of_not_lt hcontrol, rfl⟩)

/-- What is written for a character is read as this character. -/
lemma readQuoted_escape (c : Char) (rest : List Char) :
    readQuoted (escape c ++ rest) =
      (readQuoted rest).map fun (cs, rest) => (c :: cs, rest) := by
  rcases escape_cases c with ⟨d, hd, hsimple, hc⟩ | ⟨hcontrol, hc⟩ |
    ⟨hquote, hslash, hplain, hc⟩ <;> rw [hc]
  · rw [List.cons_append, List.singleton_append,
      readQuoted.eq_4 _ _ fun _ _ _ _ _ h => absurd h hd, hsimple]
  · have hhigh : isHigh c.toNat = false := by simp [isHigh]; omega
    have hlow : isLow c.toNat = false := by simp [isLow]; omega
    simp [readQuoted, codeUnit?_control c.toNat hcontrol, hhigh, hlow]
  · have hshown : (decide (c.toNat < 0x20) || decide (c = '\\')) = false := by
      simp [hslash, Nat.not_lt.mpr hplain]
    rw [List.singleton_append, readQuoted.eq_5 c rest hquote (fun _ _ _ _ _ h => absurd h hslash)
      (fun _ _ h => absurd h hslash), hshown]
    rfl

/-- A text is read up to its closing quote. -/
lemma readQuoted_escapes (cs rest : List Char) :
    readQuoted (cs.flatMap escape ++ '"' :: rest) = some (cs, rest) := by
  induction cs with
  | nil => rfl
  | cons c cs ih =>
    rw [List.flatMap_cons, List.append_assoc, readQuoted_escape, ih]
    rfl

/-- What is written for a value starts with a sign, and not with one that closes an array. -/
lemma write_eq_cons (depth : Nat) (j : Json) :
    ∃ c cs, write depth j = c :: cs ∧ isSpace c = false ∧ c ≠ ']' := by
  cases j with
  | bool b => cases b <;> exact ⟨_, _, by rw [write], rfl, by decide⟩
  | text s => exact ⟨'"', _, by rw [write, quote], rfl, by decide⟩
  | array items =>
    cases items with
    | nil => exact ⟨'[', [']'], by rw [write], rfl, by decide⟩
    | cons item items => exact ⟨'[', _, by rw [write]; rfl, rfl, by decide⟩
  | object fields =>
    cases fields with
    | nil => exact ⟨'\x7b', ['\x7d'], by rw [write], rfl, by decide⟩
    | cons field fields => exact ⟨'\x7b', _, by rw [write]; rfl, rfl, by decide⟩

lemma skipSpace_cons {c : Char} (h : isSpace c = false) (cs : List Char) :
    skipSpace (c :: cs) = c :: cs :=
  List.dropWhile_cons_of_neg (by simp [h])

lemma skipSpace_space (cs : List Char) : skipSpace (' ' :: cs) = skipSpace cs := rfl

lemma skipSpace_write (depth : Nat) (j : Json) (rest : List Char) :
    skipSpace (write depth j ++ rest) = write depth j ++ rest := by
  obtain ⟨c, cs, hwrite, hspace, _⟩ := write_eq_cons depth j
  rw [hwrite, List.cons_append, skipSpace_cons hspace]

lemma skipSpace_newLine (depth : Nat) (cs : List Char) :
    skipSpace (newLine depth ++ cs) = skipSpace cs := by
  have hblank : ∀ n, skipSpace (List.replicate n ' ' ++ cs) = skipSpace cs := by
    intro n
    induction n with
    | zero => rfl
    | succ n ih => rw [List.replicate_succ, List.cons_append, skipSpace_space, ih]
  exact hblank (2 * depth)

/-- Blanks in front of a value do not matter. -/
lemma readValue_congr {cs cs' : List Char} (h : skipSpace cs = skipSpace cs') (fuel : Nat) :
    readValue fuel cs = readValue fuel cs' := by
  cases fuel with
  | zero => rw [readValue, readValue]
  | succ fuel => rw [readValue, readValue, h]

lemma readItems_congr {cs cs' : List Char} (h : skipSpace cs = skipSpace cs') (fuel : Nat) :
    readItems fuel cs = readItems fuel cs' := by
  cases fuel with
  | zero => rw [readItems, readItems]
  | succ fuel => rw [readItems, readItems, readValue_congr h]

lemma readFields_congr {cs cs' : List Char} (h : skipSpace cs = skipSpace cs') (fuel : Nat) :
    readFields fuel cs = readFields fuel cs' := by
  cases fuel with
  | zero => rw [readFields, readFields]
  | succ fuel => rw [readFields, readFields, h]

/-- Whatever is not longer than the fuel is read back, and nothing of what follows it. -/
structure ReadsBack (fuel : Nat) : Prop where
  value : ∀ (j : Json) (depth : Nat) (rest : List Char), (write depth j).length ≤ fuel →
    readValue fuel (write depth j ++ rest) = some (j, rest)
  items : ∀ (item : Json) (items : List Json) (depth last : Nat) (rest : List Char),
    (write depth item).length + (writeItems depth items).length < fuel →
      readItems fuel
          (write depth item ++ (writeItems depth items ++ (newLine last ++ ']' :: rest))) =
        some (item :: items, rest)
  fields : ∀ (key : String) (value : Json) (fields : List (String × Json)) (depth last : Nat)
    (rest : List Char), (write depth value).length + (writeFields depth fields).length < fuel →
      readFields fuel (quote key ++ (':' :: ' ' :: (write depth value ++
          (writeFields depth fields ++ (newLine last ++ '\x7d' :: rest))))) =
        some ((key, value) :: fields, rest)

lemma ReadsBack.value_succ {fuel : Nat} (h : ReadsBack fuel) (j : Json) (depth : Nat)
    (rest : List Char) (hlength : (write depth j).length ≤ fuel + 1) :
    readValue (fuel + 1) (write depth j ++ rest) = some (j, rest) := by
  rw [readValue, skipSpace_write]
  cases j with
  | bool b => cases b <;> rw [write] <;> rfl
  | text s =>
    rw [write, quote, List.cons_append, List.append_assoc, List.singleton_append]
    simp only [readQuoted_escapes]
    simp
  | array items =>
    cases items with
    | nil => rw [write]; rfl
    | cons item items =>
      simp only [write, List.length_append, List.length_cons] at hlength
      have hitems := h.items item items (depth + 1) depth rest (by omega)
      simp only [write, List.cons_append, List.append_assoc, List.nil_append, skipSpace_newLine,
        skipSpace_write]
      -- The first item cannot be taken for the end of the array.
      obtain ⟨c, cs, hwrite, -, hclose⟩ := write_eq_cons (depth + 1) item
      rw [hwrite, List.cons_append] at hitems ⊢
      simp [hclose, hitems]
  | object fields =>
    rcases fields with _ | ⟨⟨key, value⟩, fields⟩
    · rw [write]; rfl
    · simp only [write, List.length_append, List.length_cons] at hlength
      have hfields := h.fields key value fields (depth + 1) depth rest (by omega)
      simp only [write, quote, List.cons_append, List.append_assoc, List.nil_append,
        skipSpace_newLine] at hfields ⊢
      simp [skipSpace, isSpace, hfields]

lemma ReadsBack.items_succ {fuel : Nat} (h : ReadsBack fuel) (item : Json) (items : List Json)
    (depth last : Nat) (rest : List Char)
    (hlength : (write depth item).length + (writeItems depth items).length < fuel + 1) :
    readItems (fuel + 1)
        (write depth item ++ (writeItems depth items ++ (newLine last ++ ']' :: rest))) =
      some (item :: items, rest) := by
  rw [readItems, h.value item depth _ (by omega)]
  cases items with
  | nil =>
    simp only [writeItems, List.nil_append, skipSpace_newLine]
    rfl
  | cons next items =>
    simp only [writeItems, List.length_append, List.length_cons] at hlength
    have hitems := h.items next items depth last rest (by omega)
    simp only [writeItems, List.cons_append, List.append_assoc,
      skipSpace_cons (show isSpace ',' = false from rfl),
      readItems_congr (skipSpace_newLine depth _), hitems, Option.map_some]

lemma ReadsBack.fields_succ {fuel : Nat} (h : ReadsBack fuel) (key : String) (value : Json)
    (fields : List (String × Json)) (depth last : Nat) (rest : List Char)
    (hlength : (write depth value).length + (writeFields depth fields).length < fuel + 1) :
    readFields (fuel + 1) (quote key ++ (':' :: ' ' :: (write depth value ++
        (writeFields depth fields ++ (newLine last ++ '\x7d' :: rest))))) =
      some ((key, value) :: fields, rest) := by
  have hvalue : ∀ more, readValue fuel (' ' :: (write depth value ++ more)) =
      some (value, more) := by
    intro more
    rw [← h.value value depth more (by omega)]
    exact readValue_congr (skipSpace_space _) fuel
  rw [readFields, quote, List.cons_append, skipSpace_cons rfl]
  simp only [List.append_assoc, List.singleton_append, readQuoted_escapes,
    skipSpace_cons (show isSpace ':' = false from rfl), hvalue, String.ofList_toList]
  cases fields with
  | nil =>
    simp only [writeFields, List.nil_append, skipSpace_newLine]
    rfl
  | cons next fields =>
    obtain ⟨key', value'⟩ := next
    simp only [writeFields, List.length_append, List.length_cons] at hlength
    have hfields := h.fields key' value' fields depth last rest (by omega)
    simp only [writeFields, List.cons_append, List.append_assoc, List.nil_append,
      skipSpace_cons (show isSpace ',' = false from rfl),
      readFields_congr (skipSpace_newLine depth _), hfields, Option.map_some]

theorem readsBack (fuel : Nat) : ReadsBack fuel := by
  induction fuel with
  | zero =>
    refine ⟨fun j depth _ hlength => ?_, fun _ _ _ _ _ h => absurd h (Nat.not_lt_zero _),
      fun _ _ _ _ _ _ h => absurd h (Nat.not_lt_zero _)⟩
    obtain ⟨c, cs, hwrite, _⟩ := write_eq_cons depth j
    simp [hwrite] at hlength
  | succ fuel ih => exact ⟨ih.value_succ, ih.items_succ, ih.fields_succ⟩

/-- The line of a value stands for this value. -/
theorem parse?_line_render (j : Json) : parse? (Text.line j.render) = some j := by
  have htext : (Text.line j.render).toList = write 0 j ++ ['\n'] := by
    rw [Text.line, render, String.toList_append, String.toList_ofList]
    rfl
  have hread := (readsBack ((write 0 j ++ ['\n']).length + 1)).value j 0 ['\n']
    (by rw [List.length_append]; omega)
  simp only [parse?, htext, hread]
  rfl

end BeanForge.Json
