import GlassHive.Library.Text
import Mathlib.Data.Nat.Digits.Lemmas

/-!
# Hexadecimal texts

Natural numbers in lower-case hexadecimal digits, and the numbers that such texts stand for.
-/

namespace Hex

def isDigit (c : Char) : Bool :=
  ('0' ≤ c && c ≤ '9') || ('a' ≤ c && c ≤ 'f')

def digitValue (c : Char) : ℕ :=
  if c ≤ '9' then c.toNat - '0'.toNat else c.toNat - 'a'.toNat + 10

/-- The number that a text of digits stands for. -/
def parse (t : Text) : ℕ :=
  t.foldl (fun n c => 16 * n + digitValue c) 0

/-- The digits of a number, the highest one first. -/
def render (n : ℕ) : Text :=
  if n = 0 then ['0'] else ((Nat.digits 16 n).map Nat.digitChar).reverse

end Hex
