import BeanForge.Proofs.Text.Literal
import Mathlib.Data.List.Basic
import Mathlib.Data.List.TakeWhile
/-!
# Literals read as Latin-1

What becomes of a text if its literal is taken as a string of bytes that ends before its first zero
byte, each byte being a character. Characters below U+00A0 have one byte: those of the second block
of control characters because they are escaped, all others because UTF-8 has it so. From U+00A0 on
a character has several bytes, and as many characters are read in its place.
-/
namespace BeanForge.Text

/-- A character that is read from a literal as it was written: it has a single byte, and this byte
does not end the text. -/
def isNarrow (c : Char) : Bool :=
  0 < c.toNat && c.toNat < 0xA0

/-- The characters that the bytes of a character are read as. -/
def bytewise (c : Char) : List Char :=
  (unitOf c).bytes.map fun b => Char.ofNat b.toNat

lemma eq_zero_iff (c : Char) : c = '\x00' ↔ c.toNat = 0 :=
  Char.toNat_inj.symm

lemma isNarrow_iff (c : Char) : isNarrow c = true ↔ c ≠ '\x00' ∧ c.toNat < 0xA0 := by
  rw [isNarrow, Bool.and_eq_true, decide_eq_true_eq, decide_eq_true_eq, Nat.pos_iff_ne_zero,
    ne_eq, ne_eq, eq_zero_iff]

lemma isControl_of_between {c : Char} (hlow : 0x7F < c.toNat) (hhigh : c.toNat < 0xA0) :
    isControl c = true := by
  simp only [isControl, Bool.or_eq_true, Bool.and_eq_true, decide_eq_true_eq]
  omega

/-- Below U+00A0 the byte of a character is its code point. -/
lemma bytes_unitOf_of_lt {c : Char} (h : c.toNat < 0xA0) :
    (unitOf c).bytes = [UInt8.ofNat c.toNat] := by
  unfold unitOf
  split_ifs with hnumber
  · rfl
  · have hascii : c.val.toNat ≤ 127 := by
      by_contra hhigh
      have hlow : 0x7F < c.toNat := Nat.lt_of_not_le hhigh
      refine hnumber ⟨isControl_of_between hlow h, ?_, ?_, ?_⟩ <;> rintro rfl <;>
        exact absurd hlow (by decide)
    exact if_pos hascii

lemma bytes_unitOf_of_le {c : Char} (h : 0xA0 ≤ c.toNat) :
    (unitOf c).bytes = String.utf8EncodeChar c := by
  have hcontrol : isControl c = false := by
    simp only [isControl, Bool.or_eq_false_iff, Bool.and_eq_false_iff, decide_eq_false_iff_not]
    omega
  rw [unitOf, if_neg (by simp [hcontrol])]
  rfl

/-- From U+00A0 on a character has several bytes, and none of them is zero. -/
lemma several_bytes_of_le {c : Char} (h : 0xA0 ≤ c.toNat) :
    2 ≤ (unitOf c).bytes.length ∧ ∀ b ∈ (unitOf c).bytes, b.toNat ≠ 0 := by
  have hwide : ¬ c.val.toNat ≤ 127 := by
    change ¬ c.toNat ≤ 127
    omega
  rw [bytes_unitOf_of_le h, String.utf8EncodeChar]
  simp only [if_neg hwide]
  split_ifs <;>
    simp only [List.length_cons, List.length_nil, List.forall_mem_cons, UInt8.toNat_ofNat'] <;>
    grind

lemma bytewise_of_lt {c : Char} (h : c.toNat < 0xA0) : bytewise c = [c] := by
  have hbyte : (UInt8.ofNat c.toNat).toNat = c.toNat := by
    rw [UInt8.toNat_ofNat']
    omega
  rw [bytewise, bytes_unitOf_of_lt h, List.map_singleton, hbyte, Char.ofNat_toNat]

lemma bytes_ne_zero {c : Char} (h : c ≠ '\x00') : ∀ b ∈ (unitOf c).bytes, b.toNat ≠ 0 := by
  by_cases hlow : c.toNat < 0xA0
  · have hpos : c.toNat ≠ 0 := fun hzero => h (by rw [← Char.ofNat_toNat c, hzero])
    rw [bytes_unitOf_of_lt hlow, List.forall_mem_singleton, UInt8.toNat_ofNat']
    omega
  · exact (several_bytes_of_le (Nat.le_of_not_lt hlow)).2

/-- Only the zero character is read as one. -/
lemma zero_not_mem_bytewise {c : Char} (h : c ≠ '\x00') : '\x00' ∉ bytewise c := by
  intro hmem
  have hbyte : ∀ n < 256, Char.ofNat n = '\x00' → n = 0 := by decide +kernel
  obtain ⟨b, hb, hzero⟩ := List.mem_map.mp hmem
  exact bytes_ne_zero h b hb (hbyte b.toNat b.toNat_lt hzero)

lemma length_bytewise_pos (c : Char) : 0 < (bytewise c).length := by
  by_cases hlow : c.toNat < 0xA0
  · simp [bytewise_of_lt hlow]
  · have hseveral := (several_bytes_of_le (Nat.le_of_not_lt hlow)).1
    rw [bytewise, List.length_map]
    omega

lemma length_le_flatMap_bytewise (cs : List Char) : cs.length ≤ (cs.flatMap bytewise).length := by
  induction cs with
  | nil => rfl
  | cons c cs ih =>
    have hpos := length_bytewise_pos c
    rw [List.flatMap_cons, List.length_append, List.length_cons]
    omega

/-- A character from U+00A0 on makes what is read longer than the text. -/
lemma length_lt_flatMap_bytewise {cs : List Char} {c : Char} (hc : c ∈ cs) (h : 0xA0 ≤ c.toNat) :
    cs.length < (cs.flatMap bytewise).length := by
  obtain ⟨before, after, rfl⟩ := List.append_of_mem hc
  have hseveral := (several_bytes_of_le h).1
  have hbefore := length_le_flatMap_bytewise before
  have hafter := length_le_flatMap_bytewise after
  have hc : (bytewise c).length = (unitOf c).bytes.length := List.length_map _
  rw [List.flatMap_append, List.flatMap_cons, List.length_append, List.length_append,
    List.length_append, List.length_cons]
  omega

/-- A text is read up to its first zero character, byte by byte. -/
theorem latin1Text_bytesOf (cs : List Char) :
    latin1Text (bytesOf (cs.map unitOf)) = (cs.takeWhile (· ≠ '\x00')).flatMap bytewise := by
  induction cs with
  | nil => rfl
  | cons c cs ih =>
    by_cases hc : c = '\x00'
    · subst hc
      rfl
    · have hbytes : ∀ b ∈ (unitOf c).bytes, decide (b ≠ 0) = true := by
        intro b hb
        exact decide_eq_true fun hzero => bytes_ne_zero hc b hb (by rw [hzero]; rfl)
      rw [List.takeWhile_cons_of_pos (by simpa using hc), List.flatMap_cons, ← ih, latin1Text,
        List.map_cons, bytesOf, List.flatMap_cons, List.takeWhile_append_of_pos hbytes,
        List.map_append]
      rfl

/-- A text is read as it was written exactly if all its characters are narrow. -/
theorem latin1Text_bytesOf_eq_iff (cs : List Char) :
    latin1Text (bytesOf (cs.map unitOf)) = cs ↔ ∀ c ∈ cs, isNarrow c := by
  simp only [latin1Text_bytesOf, isNarrow_iff]
  constructor
  · intro h
    have hzero : ∀ c ∈ cs, c ≠ '\x00' := by
      rintro c hc rfl
      rw [← h] at hc
      obtain ⟨d, hd, hmem⟩ := List.mem_flatMap.mp hc
      exact zero_not_mem_bytewise (by simpa using List.mem_takeWhile_imp hd) hmem
    have hwhole : cs.takeWhile (· ≠ '\x00') = cs :=
      List.takeWhile_eq_self_iff.mpr (by simpa using hzero)
    rw [hwhole] at h
    intro c hc
    refine ⟨hzero c hc, Nat.lt_of_not_le fun hhigh => ?_⟩
    have hlonger := length_lt_flatMap_bytewise hc hhigh
    rw [h] at hlonger
    exact Nat.lt_irrefl _ hlonger
  · intro h
    have hwhole : cs.takeWhile (· ≠ '\x00') = cs :=
      List.takeWhile_eq_self_iff.mpr (by simpa using fun c hc => (h c hc).1)
    rw [hwhole]
    calc cs.flatMap bytewise = cs.flatMap fun c => [c] :=
          List.flatMap_congr fun c hc => bytewise_of_lt (h c hc).2
      _ = cs := List.flatMap_singleton' cs

end BeanForge.Text
