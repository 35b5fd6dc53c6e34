import Mathlib.Data.List.DropRight
import Mathlib.Tactic.Ring

/-!
# Texts of code points, and UTF-8

A text of a language whose strings are sequences of code points may hold a surrogate alone. Such a
text has no UTF-8 form; any other text is what its UTF-8 form decodes to.
-/

/-- A text, by its code points. -/
abbrev Points := List ℕ

namespace Points

/-- The code points of a literal. -/
def ofString (s : String) : Points :=
  s.toList.map Char.toNat

/-- The code points of a literal, which the kernel decodes from its bytes otherwise. -/
theorem ofString_ofList {cs : List Char} : ofString (String.ofList cs) = cs.map Char.toNat := by
  rw [ofString, String.toList_ofList]

theorem ofString_append (s t : String) : ofString (s ++ t) = ofString s ++ ofString t := by
  simp [ofString]

/-- The code points of Unicode that count as white space. -/
def isSpace (n : ℕ) : Bool :=
  (9 ≤ n && n ≤ 13) || (28 ≤ n && n ≤ 32) || n == 0x85 || n == 0xa0 || n == 0x1680 ||
    (0x2000 ≤ n && n ≤ 0x200a) || n == 0x2028 || n == 0x2029 || n == 0x202f || n == 0x205f ||
    n == 0x3000

/-- A text without the white space at its ends. -/
def strip (t : Points) : Points :=
  ((t.dropWhile isSpace).reverse.dropWhile isSpace).reverse

/-- A text without white space is stripped. -/
theorem strip_of_forall {t : Points} (h : ∀ c ∈ t, isSpace c = false) : strip t = t := by
  have hfront : t.dropWhile isSpace = t := by
    rw [List.dropWhile_eq_self_iff]
    intro hlen
    simp [h _ (List.getElem_mem hlen)]
  have hback : t.reverse.dropWhile isSpace = t.reverse := by
    rw [List.dropWhile_eq_self_iff]
    intro hlen
    rw [Bool.not_eq_true]
    exact h _ (List.mem_reverse.mp (List.getElem_mem hlen))
  rw [strip, hfront, hback, List.reverse_reverse]

/-- What is stripped once is stripped. -/
theorem strip_strip (t : Points) : strip (strip t) = strip t := by
  have hstart : strip t <+: t.dropWhile isSpace := List.rdropWhile_prefix isSpace _
  have hfront : (strip t).dropWhile isSpace = strip t := by
    rw [List.dropWhile_eq_self_iff]
    intro hlen
    have hlong : 0 < (t.dropWhile isSpace).length := hlen.trans_le hstart.length_le
    rw [hstart.getElem hlen]
    exact List.dropWhile_get_zero_not isSpace t hlong
  have hback : (strip t).reverse.dropWhile isSpace = (strip t).reverse := by
    rw [strip, List.reverse_reverse, List.dropWhile_idempotent]
  conv_lhs => rw [strip, hfront, hback, List.reverse_reverse]

/-! ## UTF-8 -/

/-- A code point that is not a surrogate. -/
def isScalar (n : ℕ) : Bool :=
  n < 0xd800 || (0xe000 ≤ n && n < 0x110000)

/-- The bytes of a code point. -/
def utf8Point (n : ℕ) : List UInt8 :=
  if n < 0x80 then [UInt8.ofNat n]
  else if n < 0x800 then [UInt8.ofNat (0xc0 + n / 64), UInt8.ofNat (0x80 + n % 64)]
  else if n < 0x10000 then
    [UInt8.ofNat (0xe0 + n / 4096), UInt8.ofNat (0x80 + n / 64 % 64), UInt8.ofNat (0x80 + n % 64)]
  else
    [UInt8.ofNat (0xf0 + n / 262144), UInt8.ofNat (0x80 + n / 4096 % 64),
      UInt8.ofNat (0x80 + n / 64 % 64), UInt8.ofNat (0x80 + n % 64)]

/-- The UTF-8 form of a text, none when it holds a surrogate. -/
def utf8 (t : Points) : Option (List UInt8) :=
  if t.all isScalar then some (t.flatMap utf8Point) else none

/-- A byte that continues a code point. -/
def isTail (b : UInt8) : Bool :=
  0x80 ≤ b.toNat && b.toNat < 0xc0

/-- A code point that takes no shorter form. -/
def checked (least n : ℕ) : Option ℕ :=
  if least ≤ n && isScalar n then some n else none

/-- The text whose UTF-8 form is given. -/
def ofUtf8 : List UInt8 → Option Points
  | [] => some []
  | a :: rest =>
    if a.toNat < 0x80 then (ofUtf8 rest).map (a.toNat :: ·)
    else match rest with
    | [] => none
    | b :: rest =>
      if !isTail b || a.toNat < 0xc0 then none
      else if a.toNat < 0xe0 then
        (checked 0x80 ((a.toNat - 0xc0) * 64 + (b.toNat - 0x80))).bind fun n =>
          (ofUtf8 rest).map (n :: ·)
      else match rest with
      | [] => none
      | c :: rest =>
        if !isTail c then none
        else if a.toNat < 0xf0 then
          (checked 0x800 ((a.toNat - 0xe0) * 4096 + (b.toNat - 0x80) * 64 +
            (c.toNat - 0x80))).bind fun n => (ofUtf8 rest).map (n :: ·)
        else match rest with
        | [] => none
        | d :: rest =>
          if !isTail d || 0xf8 ≤ a.toNat then none
          else
            (checked 0x10000 ((a.toNat - 0xf0) * 262144 + (b.toNat - 0x80) * 4096 +
              (c.toNat - 0x80) * 64 + (d.toNat - 0x80))).bind fun n =>
                (ofUtf8 rest).map (n :: ·)

theorem checked_of_le {least n : ℕ} (hleast : least ≤ n) (hscalar : isScalar n = true) :
    checked least n = some n := by
  simp [checked, hleast, hscalar]

theorem toNat_ofNat_of_lt {n : ℕ} (h : n < 256) : (UInt8.ofNat n).toNat = n := by
  simp [Nat.mod_eq_of_lt h]

theorem isTail_ofNat (n : ℕ) : isTail (UInt8.ofNat (0x80 + n % 64)) = true := by
  have hlt : 0x80 + n % 64 < 256 := by omega
  rw [isTail, toNat_ofNat_of_lt hlt]
  simp only [Bool.and_eq_true, decide_eq_true_eq]
  omega

/-- The bytes of a code point decode to it, whatever follows. -/
theorem ofUtf8_utf8Point {n : ℕ} (h : isScalar n = true) (rest : List UInt8) :
    ofUtf8 (utf8Point n ++ rest) = (ofUtf8 rest).map (n :: ·) := by
  have hbound : n < 0x110000 := by
    simp only [isScalar, Bool.or_eq_true, Bool.and_eq_true, decide_eq_true_eq] at h
    omega
  have htail (m : ℕ) : (UInt8.ofNat (0x80 + m % 64)).toNat = 0x80 + m % 64 :=
    toNat_ofNat_of_lt (by omega)
  unfold utf8Point
  split
  · rename_i hn
    have ha : (UInt8.ofNat n).toNat = n := toNat_ofNat_of_lt (by omega)
    rw [List.singleton_append, ofUtf8.eq_def]
    simp only [ha, hn, if_true]
  split
  · rename_i hlow hn
    have ha : (UInt8.ofNat (0xc0 + n / 64)).toNat = 0xc0 + n / 64 := toNat_ofNat_of_lt (by omega)
    have hvalue : (0xc0 + n / 64 - 0xc0) * 64 + (0x80 + n % 64 - 0x80) = n := by omega
    have hfirst : ¬0xc0 + n / 64 < 0x80 := by omega
    have hnext : ¬0xc0 + n / 64 < 0xc0 := by omega
    have hlast : 0xc0 + n / 64 < 0xe0 := by omega
    rw [ofUtf8.eq_def]
    simp only [List.cons_append, List.nil_append, ha, htail, isTail_ofNat, hvalue, hfirst,
      hnext, hlast, if_true, if_false, Bool.not_true, Bool.false_or, decide_false,
      Bool.false_eq_true, checked_of_le (by omega : 0x80 ≤ n) h, Option.bind_some]
  split
  · rename_i hlow hn
    have ha : (UInt8.ofNat (0xe0 + n / 4096)).toNat = 0xe0 + n / 4096 :=
      toNat_ofNat_of_lt (by omega)
    have hvalue : (0xe0 + n / 4096 - 0xe0) * 4096 + (0x80 + n / 64 % 64 - 0x80) * 64 +
        (0x80 + n % 64 - 0x80) = n := by omega
    have hfirst : ¬0xe0 + n / 4096 < 0x80 := by omega
    have hnext : ¬0xe0 + n / 4096 < 0xc0 := by omega
    have hthird : ¬0xe0 + n / 4096 < 0xe0 := by omega
    have hlast : 0xe0 + n / 4096 < 0xf0 := by omega
    rw [ofUtf8.eq_def]
    simp only [List.cons_append, List.nil_append, ha, htail, isTail_ofNat, hvalue, hfirst,
      hnext, hthird, hlast, if_true, if_false, Bool.not_true, Bool.false_or, decide_false,
      Bool.false_eq_true, checked_of_le (by omega : 0x800 ≤ n) h, Option.bind_some]
  · rename_i hlow
    have ha : (UInt8.ofNat (0xf0 + n / 262144)).toNat = 0xf0 + n / 262144 :=
      toNat_ofNat_of_lt (by omega)
    have hvalue : (0xf0 + n / 262144 - 0xf0) * 262144 + (0x80 + n / 4096 % 64 - 0x80) * 4096 +
        (0x80 + n / 64 % 64 - 0x80) * 64 + (0x80 + n % 64 - 0x80) = n := by omega
    have hfirst : ¬0xf0 + n / 262144 < 0x80 := by omega
    have hnext : ¬0xf0 + n / 262144 < 0xc0 := by omega
    have hthird : ¬0xf0 + n / 262144 < 0xe0 := by omega
    have hfourth : ¬0xf0 + n / 262144 < 0xf0 := by omega
    have hlast : ¬0xf8 ≤ 0xf0 + n / 262144 := by omega
    rw [ofUtf8.eq_def]
    simp only [List.cons_append, List.nil_append, ha, htail, isTail_ofNat, hvalue, hfirst,
      hnext, hthird, hfourth, hlast, if_false, Bool.not_true, Bool.false_or, decide_false,
      Bool.false_eq_true, checked_of_le (by omega : 0x10000 ≤ n) h, Option.bind_some]

/-- A text is what its UTF-8 form decodes to. -/
theorem ofUtf8_utf8 {t : Points} {bytes : List UInt8} (h : utf8 t = some bytes) :
    ofUtf8 bytes = some t := by
  unfold utf8 at h
  split at h
  · rename_i hscalar
    obtain rfl := Option.some.inj h
    clear h
    induction t with
    | nil => rfl
    | cons n t ih =>
      rw [List.all_cons, Bool.and_eq_true] at hscalar
      have hrest : ofUtf8 (t.flatMap utf8Point) = some t := ih hscalar.2
      rw [List.flatMap_cons, ofUtf8_utf8Point hscalar.1, hrest]
      rfl
  · cases h

/-! ## Lengths -/

/-- The bytes that a text takes in UTF-8. -/
def width (t : Points) : ℕ :=
  (t.flatMap utf8Point).length

@[simp]
theorem width_nil : width [] = 0 := rfl

@[simp]
theorem width_append (t u : Points) : width (t ++ u) = width t + width u := by
  simp [width]

theorem width_cons (n : ℕ) (t : Points) : width (n :: t) = (utf8Point n).length + width t := by
  simp [width]

theorem length_utf8Point_le (n : ℕ) : (utf8Point n).length ≤ 4 := by
  unfold utf8Point
  split
  · simp
  split
  · simp
  split <;> simp

theorem length_utf8Point_of_ascii {n : ℕ} (h : n < 0x80) : (utf8Point n).length = 1 := by
  simp [utf8Point, h]

theorem width_of_ascii {t : Points} (h : ∀ n ∈ t, n < 0x80) : width t = t.length := by
  induction t with
  | nil => rfl
  | cons n t ih =>
    rw [width_cons, length_utf8Point_of_ascii (h n List.mem_cons_self),
      ih fun m hm => h m (List.mem_cons_of_mem n hm), List.length_cons]
    omega

theorem length_utf8 {t : Points} {bytes : List UInt8} (h : utf8 t = some bytes) :
    bytes.length = width t := by
  unfold utf8 at h
  split at h
  · obtain rfl := Option.some.inj h
    rfl
  · cases h

end Points
