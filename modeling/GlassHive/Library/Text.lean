import Mathlib.Data.List.Basic
import Mathlib.Data.List.DropRight

/-!
# Texts as lists of code points

The part of a string library that treats a text as a sequence of Unicode code points.
-/

/-- A text, by its code points. -/
abbrev Text := List Char

namespace Text

/-- The equality of texts, under a name that the definitions over texts share. -/
instance : LawfulBEq Text := inferInstance

/-- The characters of Unicode that count as white space. -/
def isSpace (c : Char) : Bool :=
  let n := c.toNat
  (9 ≤ n && n ≤ 13) || (28 ≤ n && n ≤ 32) || n == 0x85 || n == 0xa0 || n == 0x1680 ||
    (0x2000 ≤ n && n ≤ 0x200a) || n == 0x2028 || n == 0x2029 || n == 0x202f || n == 0x205f ||
    n == 0x3000

/-- A text without the white space at its ends. -/
def strip (text : Text) : Text :=
  ((text.dropWhile isSpace).reverse.dropWhile isSpace).reverse

/-- No white space at the ends of a text. -/
structure Trimmed (text : Text) : Prop where
  first : ∀ c, text.head? = some c → isSpace c = false
  last : ∀ c, text.getLast? = some c → isSpace c = false

theorem trimmed_strip (text : Text) : Trimmed (strip text) := by
  have hfirst : ∀ l : Text, ∀ c, (l.dropWhile isSpace).head? = some c → isSpace c = false := by
    intro l c hc
    have h := List.head?_dropWhile_not isSpace l
    rw [hc] at h
    exact h
  constructor
  · intro c hc
    have hprefix : strip text <+: text.dropWhile isSpace := List.rdropWhile_prefix isSpace _
    refine hfirst text c ?_
    obtain ⟨rest, hrest⟩ := hprefix
    rw [← hrest, List.head?_append, hc]
    rfl
  · intro c hc
    rw [strip, List.getLast?_reverse] at hc
    exact hfirst _ c hc

theorem Trimmed.strip_eq {text : Text} (h : Trimmed text) : strip text = text := by
  have hfirst : text.dropWhile isSpace = text := by
    cases text with
    | nil => rfl
    | cons c => rw [List.dropWhile_cons, h.first c rfl, if_neg Bool.false_ne_true]
  have hlast : text.reverse.dropWhile isSpace = text.reverse := by
    cases hrev : text.reverse with
    | nil => rfl
    | cons c =>
      have hc := h.last c (by rw [← List.head?_reverse, hrev]; rfl)
      rw [List.dropWhile_cons, hc, if_neg Bool.false_ne_true]
  rw [strip, hfirst, hlast, List.reverse_reverse]
/-- A character in lower case, as far as texts of ASCII characters are compared with the result:
beside the letters of ASCII only the sign of the kelvin becomes such a letter alone. -/
def lowerChar (c : Char) : Char :=
  if c.toNat = 0x212a then 'k' else c.toLower

/-- A text in lower case, to the same extent. -/
def lower (text : Text) : Text :=
  text.map lowerChar

end Text
