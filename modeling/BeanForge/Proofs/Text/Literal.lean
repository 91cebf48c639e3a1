import BeanForge.Text.Literal.Reader
import Mathlib.Data.Nat.Notation
import Mathlib.Tactic.Lemma
import Mathlib.Tactic.SplitIfs
/-!
# Literals are read as they were written

Each character of a text is written as one unit of its literal, and is read back as this unit
whatever comes after it: an octal escape has all the three digits that it can have, and what could
end a literal is escaped. A literal therefore ends where its text does, and has no other text.
-/
namespace BeanForge.Text

/-- The unit that a character is written as: only the control characters that have no short escape
become a number. -/
def unitOf (c : Char) : LiteralUnit :=
  if isControl c ∧ c ≠ '\n' ∧ c ≠ '\r' ∧ c ≠ '\t' then .number c.toNat else .char c

lemma octalValue?_octalDigit (n : ℕ) : octalValue? (octalDigit n) = some (n % 8) := by
  have hdigits : ∀ d < 8, octalValue? (Char.ofNat (0x30 + d)) = some d := by decide
  exact hdigits (n % 8) (Nat.mod_lt n (by omega))

/-- An escape of three digits is read as one number, as no fourth digit can belong to it. -/
lemma readUnits_octalEscape {n : ℕ} (h : n < 512) (rest : List Char) :
    readUnits (octalEscape n ++ rest) = withUnit (.number n) (readUnits rest) := by
  have hvalue : n / 64 % 8 * 64 + n / 8 % 8 * 8 + n % 8 = n := by omega
  simp only [octalEscape, List.cons_append, List.nil_append, readUnits, octalValue?_octalDigit,
    hvalue]

lemma isControl_lt {c : Char} (h : isControl c = true) : c.toNat < 512 := by
  simp only [isControl, Bool.or_eq_true, Bool.and_eq_true, decide_eq_true_eq] at h
  omega

lemma readUnits_raw {c : Char} (hquote : c ≠ '"') (hbackslash : c ≠ '\\') (hnewline : c ≠ '\n')
    (rest : List Char) : readUnits (c :: rest) = withUnit (.char c) (readUnits rest) := by
  rw [readUnits]
  all_goals simp_all

/-- A character is read back as its unit, and what follows it is read on its own. -/
theorem readUnits_encodeChar (c : Char) (rest : List Char) :
    readUnits (encodeChar c ++ rest) = withUnit (unitOf c) (readUnits rest) := by
  unfold encodeChar
  split_ifs with hquote hbackslash hnewline hreturn htab hcontrol
  · subst hquote; rfl
  · subst hbackslash; rfl
  · subst hnewline; rfl
  · subst hreturn; rfl
  · subst htab; rfl
  · rw [readUnits_octalEscape (isControl_lt hcontrol), unitOf,
      if_pos ⟨hcontrol, hnewline, hreturn, htab⟩]
  · rw [unitOf, if_neg (by simp [hcontrol])]
    exact readUnits_raw hquote hbackslash hnewline rest

/-- What stands between the quotes is read unit by unit, up to the quote that ends the literal. -/
theorem readUnits_encodeChars (cs following : List Char) :
    readUnits (encodeChars cs ++ '"' :: following) = some (cs.map unitOf, following) := by
  induction cs with
  | nil => rfl
  | cons c cs ih =>
    rw [encodeChars_cons, List.append_assoc, readUnits_encodeChar, ih]
    rfl

theorem readLiteral_literal (text : String) (following : List Char) :
    readLiteral ((literal text).toList ++ following) =
      some (text.toList.map unitOf, following) := by
  rw [literal, String.toList_ofList, List.append_assoc, List.singleton_append, List.cons_append]
  exact readUnits_encodeChars text.toList following

lemma textOf_singleton_unitOf (c : Char) : textOf [unitOf c] = [c] := by
  unfold unitOf
  split_ifs
  · exact congrArg (fun d => [d]) (Char.ofNat_toNat c)
  · rfl

theorem textOf_map_unitOf (cs : List Char) : textOf (cs.map unitOf) = cs := by
  induction cs with
  | nil => rfl
  | cons c cs ih =>
    calc textOf ((c :: cs).map unitOf) = textOf [unitOf c] ++ textOf (cs.map unitOf) := rfl
      _ = c :: cs := by rw [textOf_singleton_unitOf, ih, List.singleton_append]

/-- Reading a literal in front of any other text ends with the literal and gives the text that it
was written for. Every character in it is read on its own, so that no escape takes in anything of
what follows it, and different texts have different literals. -/
theorem literal_readable :
    (∀ (text : String) (following : List Char), ∃ units,
      readLiteral ((literal text).toList ++ following) = some (units, following) ∧
        textOf units = text.toList) ∧
    (∀ c : Char, ∃ unit, textOf [unit] = [c] ∧ ∀ rest : List Char,
      readUnits (encodeChar c ++ rest) = withUnit unit (readUnits rest)) ∧
    ∀ text other : String, literal text = literal other ↔ text = other := by
  refine ⟨fun text following => ?_, fun c => ?_, fun text other => ⟨fun h => ?_, ?_⟩⟩
  · exact ⟨_, readLiteral_literal text following, textOf_map_unitOf text.toList⟩
  · exact ⟨unitOf c, textOf_singleton_unitOf c, readUnits_encodeChar c⟩
  · have hread : some (text.toList.map unitOf, ([] : List Char)) =
        some (other.toList.map unitOf, []) := by
      rw [← readLiteral_literal, ← readLiteral_literal, h]
    have hunits := congrArg textOf (Prod.mk.inj (Option.some.inj hread)).1
    rw [textOf_map_unitOf, textOf_map_unitOf] at hunits
    exact String.toList_inj.mp hunits
  · rintro rfl
    rfl

/-- A digit after a control character stays a digit. -/
example : literal "bell\x077" = "\"bell\\0077\"" := by decide

end BeanForge.Text
