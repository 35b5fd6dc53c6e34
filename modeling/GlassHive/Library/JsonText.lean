import GlassHive.Library.CodePoints

/-!
# JSON texts

A parser of JSON texts in the dialect of a language whose parser also takes the three literals of
infinite and undefined numbers, refuses control characters inside strings, joins escaped pairs of
surrogates, keeps the last of two fields of one name, and gives up on a text that is nested too
deeply and on an integer that is too long. A value is written without white space, and everything
beyond ASCII as it is; what is written is read back.

A number with a fraction or an exponent keeps its text.
-/

/-- A JSON value. -/
inductive Json
  | null
  | bool (b : Bool)
  | int (n : ℤ)
  | float (text : Points)
  | str (s : Points)
  | arr (items : List Json)
  | obj (fields : List (Points × Json))
  deriving Repr

/-- How far a parser goes : nested values, and the digits of an integer. -/
structure JsonLimits where
  depth : ℕ
  digits : ℕ

/-- Why a text is not read. -/
inductive JsonFault
  | malformed
  | beyondLimits
  deriving DecidableEq, Repr

namespace Json

/-! ## Reading -/

/-- A text that does not fit is malformed. -/
def orMalformed {α : Type} : Option α → Except JsonFault α
  | none => .error .malformed
  | some a => .ok a

/-- White space between tokens. -/
def isBlank (c : ℕ) : Bool :=
  c == 32 || c == 9 || c == 10 || c == 13

/-- A text from its first token on. -/
def skip (t : Points) : Points :=
  t.dropWhile isBlank

/-- The rest of a text after a prefix. -/
def stripPrefix : Points → Points → Option Points
  | [], t => some t
  | _ :: _, [] => none
  | p :: ps, c :: t => if p = c then stripPrefix ps t else none

def isDigit (c : ℕ) : Bool :=
  48 ≤ c && c ≤ 57

/-- The value of decimal digits. -/
def ofDecimal (ds : Points) : ℕ :=
  ds.foldl (fun n d => 10 * n + (d - 48)) 0

/-- The value of a hexadecimal digit. -/
def hexValue (c : ℕ) : Option ℕ :=
  if 48 ≤ c ∧ c ≤ 57 then some (c - 48)
  else if 97 ≤ c ∧ c ≤ 102 then some (c - 87)
  else if 65 ≤ c ∧ c ≤ 70 then some (c - 55)
  else none

/-- The value of four hexadecimal digits. -/
def hex4 (a b c d : ℕ) : Option ℕ :=
  (hexValue a).bind fun a => (hexValue b).bind fun b => (hexValue c).bind fun c =>
    (hexValue d).map fun d => 4096 * a + 256 * b + 16 * c + d

/-- The character of an escape of one letter. -/
def unescape (e : ℕ) : Option ℕ :=
  if e = 34 ∨ e = 92 ∨ e = 47 then some e
  else if e = 98 then some 8
  else if e = 102 then some 12
  else if e = 110 then some 10
  else if e = 114 then some 13
  else if e = 116 then some 9
  else none

/-- The characters of a string up to its closing quote, with those that are escaped by their number
marked, and the rest of the text. -/
def chars : Points → Option (List (ℕ × Bool) × Points)
  | [] => none
  | c :: t =>
    if c = 34 then some ([], t)
    else if c = 92 then
      match t with
      | [] => none
      | e :: t =>
        if e = 117 then
          match t with
          | a :: b :: c :: d :: t =>
            (hex4 a b c d).bind fun n => (chars t).map fun r => ((n, true) :: r.1, r.2)
          | _ => none
        else (unescape e).bind fun n => (chars t).map fun r => ((n, false) :: r.1, r.2)
    else if c < 32 then none
    else (chars t).map fun r => ((c, false) :: r.1, r.2)

/-- Pairs of surrogates that are escaped one after the other are one character. -/
def joinPairs : List (ℕ × Bool) → Points
  | [] => []
  | [c] => [c.1]
  | c :: d :: cs =>
    if c.2 ∧ d.2 ∧ 0xd800 ≤ c.1 ∧ c.1 < 0xdc00 ∧ 0xdc00 ≤ d.1 ∧ d.1 < 0xe000 then
      (0x10000 + (c.1 - 0xd800) * 0x400 + (d.1 - 0xdc00)) :: joinPairs cs
    else c.1 :: joinPairs (d :: cs)

/-- A string after its opening quote. -/
def string (t : Points) : Option (Points × Points) :=
  (chars t).map fun r => (joinPairs r.1, r.2)

/-- The literals. -/
def literals : List (Points × Json) :=
  [([110, 117, 108, 108], .null),
   ([116, 114, 117, 101], .bool true),
   ([102, 97, 108, 115, 101], .bool false),
   ([78, 97, 78], .float [78, 97, 78]),
   ([73, 110, 102, 105, 110, 105, 116, 121], .float [73, 110, 102, 105, 110, 105, 116, 121]),
   ([45, 73, 110, 102, 105, 110, 105, 116, 121],
    .float [45, 73, 110, 102, 105, 110, 105, 116, 121])]

def literal (t : Points) : Option (Json × Points) :=
  literals.findSome? fun l => (stripPrefix l.1 t).map fun rest => (l.2, rest)

/-- The digits before the point: a zero is alone. -/
def integral (t : Points) : Option (Points × Points) :=
  match t with
  | [] => none
  | c :: rest =>
    if c = 48 then some ([48], rest)
    else if isDigit c then some (t.takeWhile isDigit, t.dropWhile isDigit)
    else none

/-- The digits after a point, with it. -/
def fraction (t : Points) : Points × Points :=
  match t with
  | 46 :: rest =>
    if (rest.takeWhile isDigit).isEmpty then ([], t)
    else (46 :: rest.takeWhile isDigit, rest.dropWhile isDigit)
  | _ => ([], t)

/-- The sign of an exponent. -/
def exponentSign (t : Points) : Points × Points :=
  match t with
  | [] => ([], t)
  | c :: rest => if c = 43 ∨ c = 45 then ([c], rest) else ([], t)

/-- An exponent, with its letter. -/
def exponent (t : Points) : Points × Points :=
  match t with
  | [] => ([], t)
  | c :: rest =>
    let sign := exponentSign rest
    if (c = 101 ∨ c = 69) ∧ !(sign.2.takeWhile isDigit).isEmpty then
      (c :: (sign.1 ++ sign.2.takeWhile isDigit), sign.2.dropWhile isDigit)
    else ([], t)

/-- The sign of a number. -/
def sign (t : Points) : Points × Points :=
  match t with
  | 45 :: rest => ([45], rest)
  | _ => ([], t)

def number (digits : ℕ) (t : Points) : Except JsonFault (Json × Points) :=
  (orMalformed (integral (sign t).2)).bind fun whole =>
    let frac := fraction whole.2
    let exp := exponent frac.2
    if frac.1.isEmpty && exp.1.isEmpty then
      if digits < whole.1.length then .error .beyondLimits
      else
        .ok (.int (if (sign t).1.isEmpty then ofDecimal whole.1 else -ofDecimal whole.1), whole.2)
    else .ok (.float ((sign t).1 ++ whole.1 ++ frac.1 ++ exp.1), exp.2)

/-- The items of an array after its bracket, up to the closing one. -/
def items (value : Points → Except JsonFault (Json × Points)) :
    ℕ → Points → Except JsonFault (List Json × Points)
  | 0, _ => .error .malformed
  | fuel + 1, t =>
    (value t).bind fun v =>
      match skip v.2 with
      | 44 :: t => (items value fuel (skip t)).map fun r => (v.1 :: r.1, r.2)
      | 93 :: t => .ok ([v.1], t)
      | _ => .error .malformed

/-- A field of an object. -/
def field (value : Points → Except JsonFault (Json × Points)) (t : Points) :
    Except JsonFault ((Points × Json) × Points) :=
  match t with
  | 34 :: t =>
    (orMalformed (string t)).bind fun key =>
      match skip key.2 with
      | 58 :: t => (value (skip t)).map fun v => ((key.1, v.1), v.2)
      | _ => .error .malformed
  | _ => .error .malformed

/-- The fields of an object after its brace, up to the closing one. -/
def fields (value : Points → Except JsonFault (Json × Points)) :
    ℕ → Points → Except JsonFault (List (Points × Json) × Points)
  | 0, _ => .error .malformed
  | fuel + 1, t =>
    (field value t).bind fun f =>
      match skip f.2 with
      | 44 :: t => (fields value fuel (skip t)).map fun r => (f.1 :: r.1, r.2)
      | 125 :: t => .ok ([f.1], t)
      | _ => .error .malformed

/-- A field is set where it is, or comes last. -/
def setField (fs : List (Points × Json)) (f : Points × Json) : List (Points × Json) :=
  if fs.any fun g => g.1 == f.1 then fs.map fun g => if g.1 = f.1 then f else g else fs ++ [f]

/-- The object of a list of fields. -/
def ofFields (fs : List (Points × Json)) : Json :=
  .obj (fs.foldl setField [])

/-- A value at the head of a text, nested at most `depth` deep, and the rest of the text. -/
def value (digits depth : ℕ) (t : Points) : Except JsonFault (Json × Points) :=
  match t with
  | [] => .error .malformed
  | c :: rest =>
    if c = 34 then (orMalformed (string rest)).map fun s => (.str s.1, s.2)
    else if c = 91 then
      match depth with
      | 0 => .error .beyondLimits
      | depth + 1 =>
        match skip rest with
        | 93 :: rest => .ok (.arr [], rest)
        | t => (items (value digits depth) t.length t).map fun r => (.arr r.1, r.2)
    else if c = 123 then
      match depth with
      | 0 => .error .beyondLimits
      | depth + 1 =>
        match skip rest with
        | 125 :: rest => .ok (.obj [], rest)
        | t => (fields (value digits depth) t.length t).map fun r => (ofFields r.1, r.2)
    else
      match literal t with
      | some l => .ok l
      | none => number digits t
  termination_by structural depth

/-- `json.loads`. -/
def loads (limits : JsonLimits) (t : Points) : Except JsonFault Json :=
  (value limits.digits limits.depth (skip t)).bind fun r =>
    if (skip r.2).isEmpty then .ok r.1 else .error .malformed

/-! ## Writing -/

/-- The digits of a number. -/
def decimalDigits : ℕ → ℕ → Points
  | 0, _ => []
  | fuel + 1, n => if n < 10 then [48 + n] else decimalDigits fuel (n / 10) ++ [48 + n % 10]

def decimal (n : ℕ) : Points :=
  decimalDigits (n + 1) n

/-- A hexadecimal digit. -/
def hexDigit (n : ℕ) : ℕ :=
  if n < 10 then 48 + n else 87 + n

/-- A character inside a string. -/
def escape (c : ℕ) : Points :=
  if c = 34 ∨ c = 92 then [92, c]
  else if c = 8 then [92, 98]
  else if c = 12 then [92, 102]
  else if c = 10 then [92, 110]
  else if c = 13 then [92, 114]
  else if c = 9 then [92, 116]
  else if c < 32 then [92, 117, 48, 48, hexDigit (c / 16), hexDigit (c % 16)]
  else [c]

/-- A string with its quotes. -/
def quote (s : Points) : Points :=
  34 :: (s.flatMap escape ++ [34])

def renderInt : ℤ → Points
  | .ofNat n => decimal n
  | .negSucc n => 45 :: decimal (n + 1)

mutual

/-- `json.dumps`, without white space. -/
def dumps : Json → Points
  | .null => [110, 117, 108, 108]
  | .bool true => [116, 114, 117, 101]
  | .bool false => [102, 97, 108, 115, 101]
  | .int n => renderInt n
  | .float text => text
  | .str s => quote s
  | .arr items => 91 :: (dumpsItems items ++ [93])
  | .obj fields => 123 :: (dumpsFields fields ++ [125])
  termination_by structural v => v

/-- The items of an array. -/
def dumpsItems : List Json → Points
  | [] => []
  | [v] => dumps v
  | v :: vs => dumps v ++ 44 :: dumpsItems vs
  termination_by structural vs => vs

/-- The fields of an object. -/
def dumpsFields : List (Points × Json) → Points
  | [] => []
  | [(k, v)] => quote k ++ 58 :: dumps v
  | (k, v) :: fs => quote k ++ 58 :: (dumps v ++ 44 :: dumpsFields fs)
  termination_by structural fs => fs

end

/-! ## Strings are read back -/

variable {n c digits depth : ℕ} {rest t : Points} {v : Json} {fs : List (Points × Json)}

theorem hexValue_hexDigit (h : n < 16) : hexValue (hexDigit n) = some n := by
  unfold hexDigit hexValue
  split
  · rw [if_pos (by omega)]
    simp
  · rw [if_neg (by omega), if_pos (by omega)]
    simp

/-- A written character, marked as the reader of strings marks it. -/
def marked (c : ℕ) : ℕ × Bool :=
  (c, (escape c).length == 6)

theorem lt_of_marked (h : (marked c).2 = true) : c < 32 := by
  by_contra hlarge
  have hlen : (escape c).length ≤ 2 := by
    unfold escape
    repeat' split
    all_goals simp
  simp only [marked, beq_iff_eq] at h
  omega

/-- A written character is read as itself. -/
theorem chars_escape (c : ℕ) (t : Points) :
    chars (escape c ++ t) = (chars t).map fun r => (marked c :: r.1, r.2) := by
  unfold marked escape
  split
  · rename_i hc
    rw [List.cons_append, List.cons_append, List.nil_append, chars.eq_def]
    rcases hc with rfl | rfl <;> simp [unescape]
  split
  · rename_i hc
    subst hc
    rw [List.cons_append, List.cons_append, List.nil_append, chars.eq_def]
    simp [unescape]
  split
  · rename_i hc
    subst hc
    rw [List.cons_append, List.cons_append, List.nil_append, chars.eq_def]
    simp [unescape]
  split
  · rename_i hc
    subst hc
    rw [List.cons_append, List.cons_append, List.nil_append, chars.eq_def]
    simp [unescape]
  split
  · rename_i hc
    subst hc
    rw [List.cons_append, List.cons_append, List.nil_append, chars.eq_def]
    simp [unescape]
  split
  · rename_i hc
    subst hc
    rw [List.cons_append, List.cons_append, List.nil_append, chars.eq_def]
    simp [unescape]
  split
  · rename_i hc
    have hhigh : hexValue (hexDigit (c / 16)) = some (c / 16) := hexValue_hexDigit (by omega)
    have hlow : hexValue (hexDigit (c % 16)) = some (c % 16) := hexValue_hexDigit (by omega)
    have hzero : hexValue 48 = some 0 := by decide
    have hvalue : 16 * (c / 16) + c % 16 = c := by omega
    simp only [List.cons_append, List.nil_append]
    rw [chars.eq_def]
    simp [hex4, hhigh, hlow, hzero, hvalue]
  · rename_i hquote _ _ _ _ _ hcontrol
    rw [List.singleton_append, chars.eq_def]
    simp only [not_or] at hquote
    simp [hquote.1, hquote.2, hcontrol]

theorem chars_flatMap_escape (s rest : Points) :
    chars (s.flatMap escape ++ 34 :: rest) = some (s.map marked, rest) := by
  induction s with
  | nil =>
    rw [List.flatMap_nil, List.nil_append, chars.eq_def]
    simp
  | cons c s ih =>
    rw [List.flatMap_cons, List.append_assoc, chars_escape, ih]
    simp

/-- No pair of surrogates is escaped by number. -/
theorem joinPairs_map_marked (s : Points) : joinPairs (s.map marked) = s := by
  induction s with
  | nil => rfl
  | cons c s ih =>
    cases s with
    | nil => rfl
    | cons =>
      rw [List.map_cons, List.map_cons, joinPairs, if_neg, ← List.map_cons, ih]
      · rfl
      · rintro ⟨hmark, -, hhigh, -⟩
        have hlt := lt_of_marked hmark
        change 0xd800 ≤ c at hhigh
        omega

theorem string_flatMap_escape (s rest : Points) :
    string (s.flatMap escape ++ 34 :: rest) = some (s, rest) := by
  rw [string, chars_flatMap_escape, Option.map_some, joinPairs_map_marked]

/-! ## Numbers are read back -/

theorem ofDecimal_append_singleton (ds : Points) (d : ℕ) :
    ofDecimal (ds ++ [d]) = 10 * ofDecimal ds + (d - 48) := by
  simp [ofDecimal]

theorem isDigit_of_lt (h : n < 10) : isDigit (48 + n) = true := by
  simp only [isDigit, Bool.and_eq_true, decide_eq_true_eq]
  omega

theorem decimalDigits_spec (fuel n : ℕ) (h : n < fuel) :
    (∀ d ∈ decimalDigits fuel n, isDigit d = true) ∧ ofDecimal (decimalDigits fuel n) = n := by
  induction fuel generalizing n with
  | zero => omega
  | succ fuel ih =>
    unfold decimalDigits
    split
    · rename_i hn
      refine ⟨fun d hd => ?_, by simp [ofDecimal]⟩
      rw [List.mem_singleton.mp hd]
      exact isDigit_of_lt hn
    · obtain ⟨hdigits, hvalue⟩ := ih (n / 10) (by omega)
      have hlast : n % 10 < 10 := Nat.mod_lt n (by omega)
      refine ⟨fun d hd => ?_, ?_⟩
      · rcases List.mem_append.mp hd with hd | hd
        · exact hdigits d hd
        · rw [List.mem_singleton.mp hd]
          exact isDigit_of_lt hlast
      · rw [ofDecimal_append_singleton, hvalue]
        omega

/-- A number other than zero is written with a first digit other than zero. -/
theorem decimalDigits_pos (fuel n : ℕ) (h : n < fuel) (hpos : 0 < n) :
    ∃ d ds, decimalDigits fuel n = d :: ds ∧ 48 < d := by
  induction fuel generalizing n with
  | zero => omega
  | succ fuel ih =>
    unfold decimalDigits
    split
    · exact ⟨48 + n, [], rfl, by omega⟩
    · obtain ⟨d, ds, heq, hd⟩ := ih (n / 10) (by omega) (by omega)
      exact ⟨d, ds ++ [48 + n % 10], by rw [heq, List.cons_append], hd⟩

theorem length_decimalDigits_le (fuel n k : ℕ) (h : n < 10 ^ (k + 1)) :
    (decimalDigits fuel n).length ≤ k + 1 := by
  induction fuel generalizing n k with
  | zero => simp [decimalDigits]
  | succ fuel ih =>
    unfold decimalDigits
    split
    · simp
    · rename_i hn
      cases k with
      | zero => omega
      | succ k =>
        have hrest := ih (n / 10) k (by rw [pow_succ] at h; omega)
        rw [List.length_append, List.length_singleton]
        omega

theorem isDigit_of_mem_decimal {d : ℕ} (h : d ∈ decimal n) : isDigit d = true :=
  (decimalDigits_spec (n + 1) n (by omega)).1 d h

theorem ofDecimal_decimal (n : ℕ) : ofDecimal (decimal n) = n :=
  (decimalDigits_spec (n + 1) n (by omega)).2

theorem decimal_pos (h : 0 < n) : ∃ d ds, decimal n = d :: ds ∧ 48 < d :=
  decimalDigits_pos (n + 1) n (by omega) h

theorem length_decimal_le {k : ℕ} (h : n < 10 ^ (k + 1)) : (decimal n).length ≤ k + 1 :=
  length_decimalDigits_le (n + 1) n k h

/-- A text that does not continue a number. -/
def EndsNumber (rest : Points) : Prop :=
  ∀ c ∈ rest.head?, isDigit c = false ∧ c ≠ 46 ∧ c ≠ 101 ∧ c ≠ 69

theorem fraction_of_endsNumber (h : EndsNumber rest) : fraction rest = ([], rest) := by
  unfold fraction
  split
  · exact absurd rfl (h 46 rfl).2.1
  · rfl

theorem exponent_of_endsNumber (h : EndsNumber rest) : exponent rest = ([], rest) := by
  unfold exponent
  split
  · rfl
  · rename_i c rest
    have hc := h c rfl
    simp [hc.2.2.1, hc.2.2.2]

theorem takeWhile_isDigit {ds : Points} (hds : ∀ d ∈ ds, isDigit d = true) (h : EndsNumber rest) :
    (ds ++ rest).takeWhile isDigit = ds ∧ (ds ++ rest).dropWhile isDigit = rest := by
  have hrest : rest.takeWhile isDigit = [] ∧ rest.dropWhile isDigit = rest := by
    cases rest with
    | nil => exact ⟨rfl, rfl⟩
    | cons c => simp [(h c rfl).1]
  rw [List.takeWhile_append_of_pos hds, List.dropWhile_append_of_pos hds, hrest.1, hrest.2,
    List.append_nil]
  exact ⟨rfl, rfl⟩

theorem integral_decimal (n : ℕ) (h : EndsNumber rest) :
    integral (decimal n ++ rest) = some (decimal n, rest) := by
  rcases Nat.eq_zero_or_pos n with rfl | hn
  · rfl
  · have hdigits := takeWhile_isDigit (fun d => isDigit_of_mem_decimal (n := n)) h
    obtain ⟨d, ds, heq, hd⟩ := decimal_pos hn
    have hdigit : isDigit d = true := isDigit_of_mem_decimal (n := n) (by simp [heq])
    have hne : d ≠ 48 := by omega
    rw [heq, List.cons_append] at hdigits ⊢
    simp only [integral, hne, hdigit, if_true, if_false, hdigits.1, hdigits.2]

theorem sign_decimal (n : ℕ) (rest : Points) :
    sign (decimal n ++ rest) = ([], decimal n ++ rest) := by
  unfold sign
  split
  · rename_i t heq
    rcases Nat.eq_zero_or_pos n with rfl | hn
    · exact absurd (List.cons.inj heq).1 (by decide)
    · obtain ⟨d, ds, hdec, hd⟩ := decimal_pos hn
      rw [hdec, List.cons_append] at heq
      have := (List.cons.inj heq).1
      omega
  · rfl

/-- An integer is read back where nothing continues it. -/
theorem number_renderInt {n : ℤ} (hdigits : (decimal n.natAbs).length ≤ digits)
    (h : EndsNumber rest) : number digits (renderInt n ++ rest) = .ok (.int n, rest) := by
  have hlen : ¬digits < (decimal n.natAbs).length := by omega
  cases n with
  | ofNat n =>
    change ¬digits < (decimal n).length at hlen
    simp [number, renderInt, sign_decimal, integral_decimal n h, orMalformed, Except.bind,
      fraction_of_endsNumber h, exponent_of_endsNumber h, hlen, ofDecimal_decimal]
  | negSucc n =>
    change ¬digits < (decimal (n + 1)).length at hlen
    simp [number, renderInt, sign, integral_decimal (n + 1) h, orMalformed, Except.bind,
      fraction_of_endsNumber h, exponent_of_endsNumber h, hlen, ofDecimal_decimal,
      Int.negSucc_eq]

/-! ## Values are read back -/

/-- A value that is read back: no number in it keeps a text of its own, its integers and its nesting
are within the limits, and no object has two fields of one name. -/
def Readable (digits : ℕ) : ℕ → Json → Prop
  | _, .null => True
  | _, .bool _ => True
  | _, .int n => (decimal n.natAbs).length ≤ digits
  | _, .float _ => False
  | _, .str _ => True
  | 0, .arr _ => False
  | depth + 1, .arr vs => ∀ v ∈ vs, Readable digits depth v
  | 0, .obj _ => False
  | depth + 1, .obj fs => (fs.map Prod.fst).Nodup ∧ ∀ f ∈ fs, Readable digits depth f.2
  termination_by structural depth => depth

/-- A written value begins with a character that is neither blank nor closes a bracket. -/
structure Heads (t : Points) : Prop where
  exists_cons : ∃ c rest, t = c :: rest ∧ isBlank c = false ∧ c ≠ 93 ∧ c ≠ 125

theorem Heads.skip (h : Heads t) (rest : Points) : skip (t ++ rest) = t ++ rest := by
  obtain ⟨c, u, rfl, hblank, -⟩ := h.exists_cons
  simp [Json.skip, hblank]

theorem Heads.of_cons (h : isBlank c = false ∧ c ≠ 93 ∧ c ≠ 125) (t : Points) : Heads (c :: t) :=
  ⟨c, t, rfl, h⟩

theorem heads_decimal (n : ℕ) : Heads (decimal n) := by
  rcases Nat.eq_zero_or_pos n with rfl | hn
  · exact .of_cons (by decide) _
  · obtain ⟨d, ds, heq, hd⟩ := decimal_pos hn
    have hdigit : isDigit d = true := isDigit_of_mem_decimal (n := n) (by simp [heq])
    simp only [isDigit, Bool.and_eq_true, decide_eq_true_eq] at hdigit
    rw [heq]
    refine .of_cons ⟨?_, by omega, by omega⟩ _
    simp only [isBlank, Bool.or_eq_false_iff, beq_eq_false_iff_ne]
    omega

theorem heads_renderInt (n : ℤ) : Heads (renderInt n) := by
  cases n with
  | ofNat n => exact heads_decimal n
  | negSucc => exact .of_cons (by decide) _

theorem heads_dumps (h : Readable digits depth v) : Heads (dumps v) := by
  cases v with
  | null => exact .of_cons (by decide) _
  | bool b => cases b <;> exact .of_cons (by decide) _
  | int n =>
    rw [dumps]
    exact heads_renderInt n
  | float => cases depth <;> exact h.elim
  | str => exact .of_cons (by decide) _
  | arr => exact .of_cons (by decide) _
  | obj => exact .of_cons (by decide) _

/-- A literal does not begin as a number does. -/
theorem literal_eq_none (h : isDigit c = true ∨ c = 45 ∧ ∃ d u, t = d :: u ∧ isDigit d = true) :
    literal (c :: t) = none := by
  rcases h with hc | ⟨rfl, d, u, rfl, hd⟩
  · simp only [isDigit, Bool.and_eq_true, decide_eq_true_eq] at hc
    have h1 : 110 ≠ c := by omega
    have h2 : 116 ≠ c := by omega
    have h3 : 102 ≠ c := by omega
    have h4 : 78 ≠ c := by omega
    have h5 : 73 ≠ c := by omega
    have h6 : 45 ≠ c := by omega
    simp [literal, literals, stripPrefix, h1, h2, h3, h4, h5, h6]
  · simp only [isDigit, Bool.and_eq_true, decide_eq_true_eq] at hd
    have h1 : 73 ≠ d := by omega
    simp [literal, literals, stripPrefix, h1]

theorem decimal_cons (n : ℕ) : ∃ d ds, decimal n = d :: ds ∧ isDigit d = true := by
  obtain ⟨d, ds, heq, -⟩ := (heads_decimal n).exists_cons
  exact ⟨d, ds, heq, isDigit_of_mem_decimal (n := n) (by simp [heq])⟩

theorem value_renderInt {n : ℤ} (hdigits : (decimal n.natAbs).length ≤ digits) (h : EndsNumber rest) :
    value digits depth (renderInt n ++ rest) = .ok (.int n, rest) := by
  have hnumber := number_renderInt hdigits h
  have hhead : ∃ c u, renderInt n ++ rest = c :: u ∧
      (isDigit c = true ∨ c = 45 ∧ ∃ d w, u = d :: w ∧ isDigit d = true) := by
    cases n with
    | ofNat n =>
      obtain ⟨d, ds, heq, hd⟩ := decimal_cons n
      exact ⟨d, ds ++ rest, by simp [renderInt, heq], Or.inl hd⟩
    | negSucc n =>
      obtain ⟨d, ds, heq, hd⟩ := decimal_cons (n + 1)
      exact ⟨45, d :: (ds ++ rest), by simp [renderInt, heq], Or.inr ⟨rfl, d, _, rfl, hd⟩⟩
  obtain ⟨c, u, heq, hc⟩ := hhead
  have hne : c ≠ 34 ∧ c ≠ 91 ∧ c ≠ 123 := by
    rcases hc with hc | ⟨rfl, -⟩
    · simp only [isDigit, Bool.and_eq_true, decide_eq_true_eq] at hc
      omega
    · decide
  rw [heq] at hnumber ⊢
  rw [value.eq_def]
  simp only [hne.1, hne.2.1, hne.2.2, if_false, literal_eq_none hc, hnumber]

theorem Heads.append (h : Heads t) (u : Points) : Heads (t ++ u) := by
  obtain ⟨c, rest, rfl, hc⟩ := h.exists_cons
  exact .of_cons hc _

theorem Heads.length_pos (h : Heads t) : 0 < t.length := by
  obtain ⟨c, rest, rfl, -⟩ := h.exists_cons
  simp

theorem EndsNumber.of_cons (h : isDigit c = false ∧ c ≠ 46 ∧ c ≠ 101 ∧ c ≠ 69) (t : Points) :
    EndsNumber (c :: t) := by
  intro d hd
  obtain rfl : c = d := by simpa using hd
  exact h

/-! ### Arrays -/

section Reader

variable {read : Points → Except JsonFault (Json × Points)} {v : Json}

/-- The reader reads the value back, wherever nothing continues a number. -/
def ReadsBack (read : Points → Except JsonFault (Json × Points)) (v : Json) : Prop :=
  Heads (dumps v) ∧ ∀ rest, EndsNumber rest → read (dumps v ++ rest) = .ok (v, rest)

theorem dumpsItems_cons_cons (v w : Json) (vs : List Json) :
    dumpsItems (v :: w :: vs) = dumps v ++ 44 :: dumpsItems (w :: vs) := by
  simp [dumpsItems]

theorem heads_dumpsItems (h : Heads (dumps v)) (vs : List Json) : Heads (dumpsItems (v :: vs)) := by
  cases vs with
  | nil => simpa [dumpsItems] using h
  | cons => simpa [dumpsItems] using h.append _

theorem length_le_dumpsItems {vs : List Json} (h : ∀ v ∈ vs, Heads (dumps v)) :
    vs.length ≤ (dumpsItems vs).length := by
  induction vs with
  | nil => simp
  | cons v vs ih =>
    have hpos := (h v List.mem_cons_self).length_pos
    have hrest := ih fun w hw => h w (List.mem_cons_of_mem v hw)
    cases vs with
    | nil =>
      rw [dumpsItems, List.length_singleton]
      omega
    | cons =>
      simp only [dumpsItems_cons_cons, List.length_append, List.length_cons] at hrest ⊢
      omega

/-- The items of an array are read back. -/
theorem items_dumpsItems {vs : List Json} (h : ∀ w ∈ v :: vs, ReadsBack read w) {n : ℕ}
    (hn : (v :: vs).length ≤ n) (rest : Points) :
    items read n (dumpsItems (v :: vs) ++ 93 :: rest) = .ok (v :: vs, rest) := by
  induction vs generalizing v n with
  | nil =>
    obtain ⟨n, rfl⟩ := Nat.exists_eq_add_of_lt hn
    have hread := (h v List.mem_cons_self).2 (93 :: rest) (.of_cons (by decide) _)
    have hskip : skip (93 :: rest) = 93 :: rest := by simp [skip, isBlank]
    simp [items, dumpsItems, hread, Except.bind, hskip]
  | cons w vs ih =>
    obtain ⟨n, rfl⟩ := Nat.exists_eq_add_of_lt hn
    have hread := (h v List.mem_cons_self).2 (44 :: (dumpsItems (w :: vs) ++ 93 :: rest))
      (.of_cons (by decide) _)
    have hskip (t : Points) : skip (44 :: t) = 44 :: t := by simp [skip, isBlank]
    have hrest : ∀ u ∈ w :: vs, ReadsBack read u := fun u hu => h u (List.mem_cons_of_mem v hu)
    have hnext := (heads_dumpsItems (hrest w List.mem_cons_self).1 vs).skip (93 :: rest)
    have hitems := @ih w hrest ((w :: vs).length + n) (by simp)
    rw [dumpsItems_cons_cons, List.append_assoc, List.cons_append]
    simp only [items, hread, Except.bind, hskip, hnext, hitems]
    rfl

/-! ### Objects -/

theorem dumpsFields_cons_cons (k : Points) (v : Json) (g : Points × Json)
    (fs : List (Points × Json)) :
    dumpsFields ((k, v) :: g :: fs) =
      quote k ++ 58 :: (dumps v ++ 44 :: dumpsFields (g :: fs)) := by
  simp [dumpsFields]

theorem exists_dumpsFields (f : Points × Json) (fs : List (Points × Json)) :
    ∃ t, dumpsFields (f :: fs) = 34 :: t := by
  obtain ⟨k, v⟩ := f
  cases fs <;> simp [dumpsFields, quote]

theorem length_le_dumpsFields (fs : List (Points × Json)) :
    fs.length ≤ (dumpsFields fs).length := by
  induction fs with
  | nil => simp
  | cons f fs ih =>
    obtain ⟨k, v⟩ := f
    cases fs with
    | nil => simp [dumpsFields, quote]
    | cons =>
      simp only [dumpsFields_cons_cons, List.length_append, List.length_cons] at ih ⊢
      omega

/-- A field of an object is read back. -/
theorem field_quote (h : ReadsBack read v) (k : Points) {t : Points} (ht : EndsNumber t) :
    field read (quote k ++ 58 :: (dumps v ++ t)) = .ok ((k, v), t) := by
  have hskip : skip (58 :: (dumps v ++ t)) = 58 :: (dumps v ++ t) := by
    simp [skip, isBlank]
  have hstring := string_flatMap_escape k (58 :: (dumps v ++ t))
  simp only [quote, List.cons_append, List.append_assoc, List.nil_append, field, hstring,
    orMalformed, Except.bind, hskip, h.1.skip, h.2 t ht]
  rfl

/-- The fields of an object are read back. -/
theorem fields_dumpsFields {f : Points × Json} {fs : List (Points × Json)}
    (h : ∀ g ∈ f :: fs, ReadsBack read g.2) {n : ℕ} (hn : (f :: fs).length ≤ n)
    (rest : Points) :
    fields read n (dumpsFields (f :: fs) ++ 125 :: rest) = .ok (f :: fs, rest) := by
  induction fs generalizing f n with
  | nil =>
    obtain ⟨n, rfl⟩ := Nat.exists_eq_add_of_lt hn
    obtain ⟨k, v⟩ := f
    have hv : ReadsBack read v := h (k, v) List.mem_cons_self
    have hend : EndsNumber (125 :: rest) := .of_cons (by decide) _
    have hskip : skip (125 :: rest) = 125 :: rest := by simp [skip, isBlank]
    rw [dumpsFields, List.append_assoc, List.cons_append]
    simp only [fields, field_quote hv k hend, Except.bind, hskip]
  | cons g fs ih =>
    obtain ⟨n, rfl⟩ := Nat.exists_eq_add_of_lt hn
    obtain ⟨k, v⟩ := f
    have hv : ReadsBack read v := h (k, v) List.mem_cons_self
    have hend : EndsNumber (44 :: (dumpsFields (g :: fs) ++ 125 :: rest)) :=
      .of_cons (by decide) _
    have hskip (t : Points) : skip (44 :: t) = 44 :: t := by simp [skip, isBlank]
    obtain ⟨t, ht⟩ := exists_dumpsFields g fs
    have hnext : skip (dumpsFields (g :: fs) ++ 125 :: rest) =
        dumpsFields (g :: fs) ++ 125 :: rest := by
      simp [ht, skip, isBlank]
    have hfields := @ih g (fun u hu => h u (List.mem_cons_of_mem _ hu)) ((g :: fs).length + n)
      (by simp)
    rw [dumpsFields_cons_cons, List.append_assoc, List.cons_append, List.append_assoc,
      List.cons_append]
    simp only [fields, field_quote hv k hend, Except.bind, hskip, hnext, hfields]
    rfl

end Reader

theorem foldl_setField {gs : List (Points × Json)} (h : ((fs ++ gs).map Prod.fst).Nodup) :
    gs.foldl setField fs = fs ++ gs := by
  induction gs generalizing fs with
  | nil => simp
  | cons g gs ih =>
    have hnew : fs.any (fun f => f.1 == g.1) = false := by
      rw [List.any_eq_false]
      intro f hf heq
      rw [List.map_append, List.nodup_append] at h
      exact h.2.2 f.1 (List.mem_map_of_mem hf) g.1 (by simp) (by simpa using heq)
    have happend : fs ++ g :: gs = fs ++ [g] ++ gs := by simp
    rw [List.foldl_cons, setField, hnew, happend]
    exact ih (happend ▸ h)

theorem ofFields_of_nodup (h : (fs.map Prod.fst).Nodup) : ofFields fs = .obj fs := by
  have hset : fs.foldl setField [] = [] ++ fs := foldl_setField h
  rw [ofFields, hset, List.nil_append]

/-- Where a name does not stand, nothing is replaced. -/
theorem map_of_not_any {n : Points} {f : Points × Json} (h : ¬fs.any fun g => g.1 == n) :
    fs.map (fun g => if g.1 = n then f else g) = fs := by
  refine (List.map_congr_left fun g hg => ?_).trans (List.map_id fs)
  have hother : ¬g.1 = n := fun heq => h (List.any_eq_true.mpr ⟨g, hg, by simpa using heq⟩)
  rw [if_neg hother, id]

theorem lookup_setField (fs : List (Points × Json)) (n : Points) (v : Json) (k : Points) :
    (setField fs (n, v)).lookup k = if k = n then some v else fs.lookup k := by
  unfold setField
  split
  · rename_i hthere
    induction fs with
    | nil => simp at hthere
    | cons g gs ih =>
      obtain ⟨n', v'⟩ := g
      rw [List.map_cons]
      by_cases hname : n' = n
      · rw [if_pos hname, List.lookup_cons, List.lookup_cons, hname]
        by_cases hk : k = n
        · simp [hk]
        · have hne : (k == n) = false := by simpa using hk
          simp only [hne, if_neg hk]
          by_cases hgs : gs.any fun g => g.1 == n
          · simpa [hk] using ih hgs
          · rw [map_of_not_any hgs]
      · have hgs : gs.any fun g => g.1 == n := by simpa [hname] using hthere
        rw [if_neg hname, List.lookup_cons, List.lookup_cons, ih hgs]
        by_cases hk : k = n'
        · have hne : ¬k = n := fun heq => hname (hk ▸ heq)
          simp [hk, hname]
        · have hne : (k == n') = false := by simpa using hk
          simp [hne]
  · rename_i hnone
    have hlookup : fs.lookup n = none := by
      rw [List.lookup_eq_none_iff]
      intro g hg
      have hne : ¬g.1 = n := by
        intro heq
        exact hnone (List.any_eq_true.mpr ⟨g, hg, by simpa using heq⟩)
      simpa using Ne.symm hne
    rw [List.lookup_append, List.lookup_cons]
    by_cases hk : k = n
    · simp [hk, hlookup]
    · have hne : (k == n) = false := by simpa using hk
      simp [hne, hk]

theorem setField_setField (fs : List (Points × Json)) (n : Points) (v w : Json) :
    setField (setField fs (n, v)) (n, w) = setField fs (n, w) := by
  by_cases hthere : fs.any fun g => g.1 == n
  · have hstill : (fs.map fun g => if g.1 = n then (n, v) else g).any fun g => g.1 == n := by
      obtain ⟨g, hg, heq⟩ := List.any_eq_true.mp hthere
      refine List.any_eq_true.mpr ⟨(n, v), List.mem_map.mpr ⟨g, hg, ?_⟩, by simp⟩
      rw [if_pos (by simpa using heq)]
    rw [setField, setField, if_pos hthere, if_pos hstill, setField, if_pos hthere, List.map_map]
    refine List.map_congr_left fun g _ => ?_
    by_cases hg : g.1 = n <;> simp [hg]
  · simp [setField, hthere, map_of_not_any hthere]

/-! ### Any value -/

/-- A value that holds no others is read back. -/
theorem value_dumps_of_flat (h : Readable digits 0 v) (ht : EndsNumber t) :
    value digits depth (dumps v ++ t) = .ok (v, t) := by
  cases v with
  | null =>
    rw [dumps, value.eq_def]
    simp [literal, literals, stripPrefix]
  | bool b =>
    cases b <;> rw [dumps, value.eq_def] <;> simp [literal, literals, stripPrefix]
  | int =>
    rw [dumps]
    exact value_renderInt h ht
  | float => exact h.elim
  | str =>
    rw [dumps, quote, List.cons_append, List.append_assoc, List.singleton_append, value.eq_def]
    simp only [if_true, string_flatMap_escape, orMalformed]
    rfl
  | arr => exact h.elim
  | obj => exact h.elim

/-- A value is read back where nothing continues a number. -/
theorem value_dumps (h : Readable digits depth v) (ht : EndsNumber t) :
    value digits depth (dumps v ++ t) = .ok (v, t) := by
  induction depth generalizing v t with
  | zero => exact value_dumps_of_flat h ht
  | succ depth ih =>
    have hback {w : Json} (hw : Readable digits depth w) : ReadsBack (value digits depth) w :=
      ⟨heads_dumps hw, fun _ hrest => ih hw hrest⟩
    cases v with
    | null => exact value_dumps_of_flat (by simp [Readable]) ht
    | bool => exact value_dumps_of_flat (by simp [Readable]) ht
    | int => exact value_dumps_of_flat h ht
    | float => exact h.elim
    | str => exact value_dumps_of_flat (by simp [Readable]) ht
    | arr vs =>
      cases vs with
      | nil => rfl
      | cons w vs =>
        have hvs : ∀ u ∈ w :: vs, ReadsBack (value digits depth) u := fun u hu => hback (h u hu)
        have hhead := heads_dumpsItems (hvs w List.mem_cons_self).1 vs
        have hlen : (w :: vs).length ≤ (dumpsItems (w :: vs) ++ 93 :: t).length := by
          have hle := length_le_dumpsItems fun u hu => (hvs u hu).1
          rw [List.length_append]
          omega
        have hitems := items_dumpsItems hvs hlen t
        have hskip := hhead.skip (93 :: t)
        obtain ⟨c, u, heq, -, hclose, -⟩ := (hhead.append (93 :: t)).exists_cons
        rw [dumps, List.cons_append, List.append_assoc, List.singleton_append, value.eq_def]
        rw [heq] at hskip hitems ⊢
        simp [hskip, hclose, ↓hitems, Except.map]
    | obj fs =>
      obtain ⟨hnodup, hfields⟩ := h
      cases fs with
      | nil => rfl
      | cons f fs =>
        have hfs : ∀ g ∈ f :: fs, ReadsBack (value digits depth) g.2 :=
          fun g hg => hback (hfields g hg)
        have hlen : (f :: fs).length ≤ (dumpsFields (f :: fs) ++ 125 :: t).length := by
          have hle := length_le_dumpsFields (f :: fs)
          rw [List.length_append]
          omega
        have hread := fields_dumpsFields hfs hlen t
        obtain ⟨u, heq⟩ := exists_dumpsFields f fs
        rw [dumps, List.cons_append, List.append_assoc, List.singleton_append, value.eq_def]
        rw [heq, List.cons_append] at hread ⊢
        have hskip : skip (34 :: (u ++ 125 :: t)) = 34 :: (u ++ 125 :: t) := by
          simp [skip, isBlank]
        simp [hskip, ↓hread, Except.map, ofFields_of_nodup hnodup]

/-- `json.loads` reads what `json.dumps` writes. -/
theorem loads_dumps {limits : JsonLimits} (h : Readable limits.digits limits.depth v) :
    loads limits (dumps v) = .ok v := by
  have hskip : skip (dumps v) = dumps v := by simpa using (heads_dumps h).skip []
  have hend : EndsNumber [] := by simp [EndsNumber]
  have hvalue := value_dumps h hend
  rw [List.append_nil] at hvalue
  rw [loads, hskip, hvalue]
  rfl

/-! ## Lengths -/

open Points

theorem width_escape_le (h : 32 ≤ c) : width (escape c) ≤ 4 := by
  unfold escape
  split
  · rename_i hc
    rcases hc with rfl | rfl <;> decide
  · simp only [show c ≠ 8 by omega, show c ≠ 12 by omega, show c ≠ 10 by omega,
      show c ≠ 13 by omega, show c ≠ 9 by omega, show ¬c < 32 by omega, if_false]
    simpa [width_cons] using length_utf8Point_le c

/-- A string without control characters takes four bytes for each of its own, and its quotes. -/
theorem width_quote_le {s : Points} (h : ∀ c ∈ s, 32 ≤ c) : width (quote s) ≤ 4 * s.length + 2 := by
  have hquote : width [34] = 1 := by decide
  have hbody : width (s.flatMap escape) ≤ 4 * s.length := by
    induction s with
    | nil => simp
    | cons c s ih =>
      have hc := width_escape_le (h c List.mem_cons_self)
      have hs := ih fun d hd => h d (List.mem_cons_of_mem c hd)
      rw [List.flatMap_cons, width_append, List.length_cons]
      omega
  rw [quote, ← List.singleton_append, width_append, width_append]
  omega

/-- Each field of an object takes its name, its value and two characters. -/
theorem width_dumpsFields_le (fs : List (Points × Json)) :
    width (dumpsFields fs) ≤
      (fs.map fun f => width (quote f.1) + width (dumps f.2) + 2).sum := by
  have hcolon : (utf8Point 58).length = 1 := by decide
  have hcomma : (utf8Point 44).length = 1 := by decide
  induction fs with
  | nil => simp [dumpsFields]
  | cons f fs =>
    obtain ⟨k, v⟩ := f
    rw [List.map_cons, List.sum_cons]
    cases fs with
    | nil =>
      rw [dumpsFields, width_append, width_cons, hcolon]
      dsimp only
      omega
    | cons =>
      rw [dumpsFields_cons_cons, width_append, width_cons, hcolon, width_append, width_cons,
        hcomma]
      dsimp only
      omega

theorem width_decimal (n : ℕ) : width (decimal n) = (decimal n).length := by
  refine width_of_ascii fun d hd => ?_
  have hdigit := isDigit_of_mem_decimal hd
  simp only [isDigit, Bool.and_eq_true, decide_eq_true_eq] at hdigit
  omega

example : (loads ⟨3, 9⟩ (Points.ofString "[1, \"a\\u00e9\", [-12e3]]")).toOption.map dumps =
    some (Points.ofString "[1,\"aé\",[-12e3]]") := by
  decide +kernel

end Json
