import GlassHive.Library.JsonText
import GlassHive.Library.Like

/-!
# Objects of strings in ASCII, and patterns on them

An object whose values are strings is written in ASCII: every other character is escaped. A pattern
of `LIKE` for one of its fields, with a `%` on both sides, can only match at that field, since a
quote inside a string is escaped and a quote that ends a value is not followed by a colon.
-/

namespace AsciiJson

open Like

/-- Four hexadecimal digits. -/
def hex (n : ℕ) : Points :=
  [Json.hexDigit (n / 4096 % 16), Json.hexDigit (n / 256 % 16), Json.hexDigit (n / 16 % 16),
    Json.hexDigit (n % 16)]

/-- A character inside a string: one beyond the basic plane as a pair of surrogates. -/
def escape (c : ℕ) : Points :=
  if c = 34 ∨ c = 92 then [92, c]
  else if 32 ≤ c ∧ c ≤ 126 then [c]
  else if c = 8 then [92, 98]
  else if c = 12 then [92, 102]
  else if c = 10 then [92, 110]
  else if c = 13 then [92, 114]
  else if c = 9 then [92, 116]
  else if c < 0x10000 then 92 :: 117 :: hex c
  else
    92 :: 117 :: (hex (0xd800 + (c - 0x10000) / 0x400) ++
      92 :: 117 :: hex (0xdc00 + (c - 0x10000) % 0x400))

/-- A string without its quotes. -/
def body (s : Points) : Points :=
  s.flatMap escape

def quote (s : Points) : Points :=
  34 :: (body s ++ [34])

/-- The fields of an object, separated. -/
def dumpsFields : List (Points × Points) → Points
  | [] => []
  | [f] => quote f.1 ++ 58 :: quote f.2
  | f :: fs => quote f.1 ++ 58 :: (quote f.2 ++ 44 :: dumpsFields fs)

/-- `json.dumps`, of an object of strings. -/
def dumps (fields : List (Points × Points)) : Points :=
  123 :: (dumpsFields fields ++ [125])

/-! ## Quotes -/

@[simp]
theorem body_nil : body [] = [] := rfl

@[simp]
theorem body_cons (c : ℕ) (s : Points) : body (c :: s) = escape c ++ body s := rfl

/-- What stands after a backslash. -/
def escapeMarks : List ℕ :=
  [34, 92, 98, 102, 110, 114, 116, 117]

/-- A character is itself, or starts with a backslash and a mark. -/
theorem escape_cases (c : ℕ) :
    (escape c = [c] ∧ c ≠ 34) ∨ ∃ e t, escape c = 92 :: e :: t ∧ e ∈ escapeMarks := by
  unfold escape
  split
  · rename_i h
    rcases h with rfl | rfl <;> exact Or.inr ⟨_, _, rfl, by decide⟩
  · rename_i hplain
    split
    · exact Or.inl ⟨rfl, fun h => hplain (Or.inl h)⟩
    · split_ifs <;> exact Or.inr ⟨_, _, rfl, by decide⟩

theorem hexDigit_ne_quote (n : ℕ) : Json.hexDigit n ≠ 34 := by
  unfold Json.hexDigit
  split <;> omega

/-- Only a quote is written with a quote. -/
theorem escape_eq_or_forall_ne (c : ℕ) : escape c = [92, 34] ∨ ∀ d ∈ escape c, d ≠ 34 := by
  by_cases hc : c = 34
  · exact Or.inl (by simp [escape, hc])
  · refine Or.inr fun d hd => ?_
    have hhex : ∀ n, 34 ∉ hex n := by
      intro n
      simp [hex, Ne.symm (hexDigit_ne_quote _)]
    rintro rfl
    unfold escape at hd
    split_ifs at hd <;> simp_all

/-- A character that is written as it is, and is no quote. -/
def isPlain (c : ℕ) : Bool :=
  32 ≤ c && c ≤ 126 && c != 34 && c != 92

variable {s r r' t : Points}

theorem body_of_isPlain (h : ∀ c ∈ s, isPlain c = true) : body s = s := by
  induction s with
  | nil => rfl
  | cons c s ih =>
    have hc : isPlain c = true := h c List.mem_cons_self
    simp only [isPlain, Bool.and_eq_true, decide_eq_true_eq, bne_iff_ne] at hc
    rw [body_cons, ih fun d hd => h d (List.mem_cons_of_mem c hd), escape,
      if_neg (by omega), if_pos (by omega)]
    rfl

/-! ## The pattern of a field -/

/-- The pattern from the quote of a name on. -/
def fieldPattern (name rest : Points) : Points :=
  34 :: (name ++ 34 :: 58 :: rest)

/-- The rest of a name does not match inside a string, whose end a comma or a brace follows. -/
def Clear (name : Points) : Prop :=
  ∀ (rest s t : Points) (c : ℕ), c = 44 ∨ c = 125 →
    like (name ++ 34 :: 58 :: rest) (body s ++ 34 :: c :: t) = false

theorem clear_nil : Clear [] := by
  intro rest s t c hc
  have hcolon : (58 == c) = false := by
    rcases hc with rfl | rfl <;> rfl
  rw [List.nil_append]
  cases s with
  | nil =>
    rw [body_nil, List.nil_append, like_cons (by omega), like_cons (by omega),
      matchesChar_of_lt (by omega) c, hcolon]
    simp
  | cons a =>
    rcases escape_cases a with ⟨hplain, hne⟩ | ⟨e, u, hescape, -⟩
    · have hquote : (34 == a) = false := beq_eq_false_iff_ne.mpr hne.symm
      rw [body_cons, hplain, List.append_assoc, List.singleton_append, like_cons (by omega),
        matchesChar_of_lt (by omega), hquote, Bool.false_and]
    · rw [body_cons, hescape, List.append_assoc, List.cons_append, like_cons (by omega),
        matchesChar_of_lt (by omega)]
      rfl

/-- A letter matches a letter only. -/
theorem Clear.cons {name : Points} (h : Clear name) {p : ℕ} (hp : p ≠ 37)
    (hquote : matchesChar p 34 = false) (hslash : matchesChar p 92 = false) :
    Clear (p :: name) := by
  intro rest s t c hc
  rw [List.cons_append]
  cases s with
  | nil => rw [body_nil, List.nil_append, like_cons hp, hquote, Bool.false_and]
  | cons a s =>
    rcases escape_cases a with ⟨hplain, -⟩ | ⟨e, u, hescape, -⟩
    · rw [body_cons, hplain, List.append_assoc, List.singleton_append, like_cons hp,
        h rest s t c hc, Bool.and_false]
    · rw [body_cons, hescape, List.append_assoc, List.cons_append, like_cons hp, hslash,
        Bool.false_and]

/-- An underscore may match a backslash or a quote, but then the letter after it does not match. -/
theorem Clear.underscore {name : Points} {p : ℕ} (h : Clear (p :: name)) (hp : p ≠ 37)
    (hmarks : ∀ e ∈ [44, 125] ++ escapeMarks, matchesChar p e = false) :
    Clear (95 :: p :: name) := by
  intro rest s t c hc
  have hend : matchesChar p c = false := by
    rcases hc with rfl | rfl
    · exact hmarks 44 (by decide)
    · exact hmarks 125 (by decide)
  rw [List.cons_append, List.cons_append]
  cases s with
  | nil =>
    rw [body_nil, List.nil_append, like_cons (by omega), like_cons hp, hend, Bool.false_and,
      Bool.and_false]
  | cons a s =>
    rcases escape_cases a with ⟨hplain, -⟩ | ⟨e, u, hescape, he⟩
    · have hrest := h rest s t c hc
      rw [List.cons_append] at hrest
      rw [body_cons, hplain, List.append_assoc, List.singleton_append, like_cons (by omega),
        hrest, Bool.and_false]
    · have hmark : matchesChar p e = false := hmarks e (List.mem_append_right _ he)
      rw [body_cons, hescape, List.append_assoc, List.cons_append, List.cons_append,
        like_cons (by omega), like_cons hp, hmark, Bool.false_and, Bool.and_false]

section Object

variable {p c : ℕ} {name rest ps other : Points}

theorem tails_any_of_ne (hc : c ≠ 34) (t : Points) :
    (c :: t).tails.any (like (34 :: ps)) = t.tails.any (like (34 :: ps)) := by
  refine tails_any_cons (by omega) ?_
  rw [matchesChar_of_lt (by omega), beq_eq_false_iff_ne]
  exact hc.symm

theorem tails_any_append {s : Points} (hs : ∀ c ∈ s, c ≠ 34) (t : Points) :
    (s ++ t).tails.any (like (34 :: ps)) = t.tails.any (like (34 :: ps)) := by
  induction s with
  | nil => rfl
  | cons c s ih =>
    rw [List.cons_append, tails_any_of_ne (hs c List.mem_cons_self),
      ih fun d hd => hs d (List.mem_cons_of_mem c hd)]

/-- The pattern does not match at a quote whose successor is not the first letter of the name. -/
theorem tails_any_quote_of_ne (hp : p ≠ 37) (hc : matchesChar p c = false) (t : Points) :
    (34 :: c :: t).tails.any (like (fieldPattern (p :: name) rest)) =
      (c :: t).tails.any (like (fieldPattern (p :: name) rest)) := by
  rw [fieldPattern, List.tails, List.any_cons, like_cons (by omega), List.cons_append,
    like_cons hp, hc, Bool.false_and, Bool.and_false, Bool.false_or]

/-- The pattern does not match inside a string. -/
theorem tails_any_body (hclear : Clear name) (hc : c = 44 ∨ c = 125) (s t : Points) :
    (body s ++ 34 :: c :: t).tails.any (like (fieldPattern name rest)) =
      (34 :: c :: t).tails.any (like (fieldPattern name rest)) := by
  induction s with
  | nil => rfl
  | cons a s ih =>
    rw [body_cons, List.append_assoc]
    rcases escape_eq_or_forall_ne a with hquote | hne
    · have hinside := hclear rest s t c hc
      rw [hquote, List.cons_append, List.singleton_append]
      rw [fieldPattern] at ih ⊢
      rw [tails_any_of_ne (by omega), List.tails, List.any_cons, like_cons (by omega), hinside,
        Bool.and_false, Bool.false_or, ih]
    · rw [fieldPattern] at ih ⊢
      rw [tails_any_append hne, ih]

/-- The pattern does not match in a value. -/
theorem tails_any_quote (hclear : Clear (p :: name)) (hp : p ≠ 37) (hc : c = 44 ∨ c = 125)
    (hend : matchesChar p c = false) (s t : Points) :
    (quote s ++ c :: t).tails.any (like (fieldPattern (p :: name) rest)) =
      (c :: t).tails.any (like (fieldPattern (p :: name) rest)) := by
  have hinside := hclear rest s t c hc
  have hbody : (body s ++ 34 :: c :: t).tails.any (like (fieldPattern (p :: name) rest)) =
      (34 :: c :: t).tails.any (like (fieldPattern (p :: name) rest)) :=
    tails_any_body hclear hc s t
  rw [quote, List.cons_append, List.append_assoc, List.singleton_append]
  rw [tails_any_quote_of_ne hp hend] at hbody
  rw [List.tails, List.any_cons, hbody]
  rw [fieldPattern, like_cons (by omega), hinside, Bool.and_false, Bool.false_or]

/-- The pattern does not match in the name of another field. -/
theorem tails_any_name (hp : p ≠ 37) (hcolon : matchesChar p 58 = false) {n : ℕ}
    (hother : ∀ c ∈ n :: other, isPlain c = true) (hfirst : matchesChar p n = false) (t : Points) :
    (quote (n :: other) ++ 58 :: t).tails.any (like (fieldPattern (p :: name) rest)) =
      t.tails.any (like (fieldPattern (p :: name) rest)) := by
  have hne : ∀ c ∈ n :: other, c ≠ 34 := by
    intro c hc
    have hplain := hother c hc
    simp only [isPlain, Bool.and_eq_true, bne_iff_ne] at hplain
    exact hplain.1.2
  rw [quote, body_of_isPlain hother, List.cons_append, List.append_assoc, List.singleton_append,
    List.cons_append, tails_any_quote_of_ne hp hfirst, ← List.cons_append]
  rw [fieldPattern, tails_any_append hne, ← fieldPattern, tails_any_quote_of_ne hp hcolon]
  rw [fieldPattern, tails_any_of_ne (by omega)]

/-- A name that the pattern cannot start to match. -/
def Differs (p : ℕ) (other : Points) : Prop :=
  ∃ n rest, other = n :: rest ∧ (∀ c ∈ other, isPlain c = true) ∧ matchesChar p n = false

theorem differs_of_head (hplain : other.all isPlain = true)
    (hhead : other.head?.map (matchesChar p) = some false) : Differs p other := by
  cases other with
  | nil => simp at hhead
  | cons n other =>
    refine ⟨n, other, rfl, List.all_eq_true.mp hplain, ?_⟩
    simpa using hhead

theorem dumpsFields_cons_append (f g : Points × Points) (fs : List (Points × Points)) :
    dumpsFields (f :: (fs ++ [g])) =
      quote f.1 ++ 58 :: (quote f.2 ++ 44 :: dumpsFields (fs ++ [g])) := by
  cases fs <;> rfl

/-- The pattern matches at the field of its name, if anywhere in it. -/
theorem tails_any_field (hclear : Clear (p :: name)) (hp : p ≠ 37)
    (hplain : ∀ c ∈ p :: name, isPlain c = true ∧ c ≠ 37)
    (hmarks : ∀ c ∈ [44, 58, 125], matchesChar p c = false) (value rest : Points) :
    (quote (p :: name) ++ 58 :: (quote value ++ [125])).tails.any
      (like (fieldPattern (p :: name) (34 :: rest))) = like rest (body value ++ [34, 125]) := by
  have hname : ∀ c ∈ p :: name, c ≠ 34 := by
    intro c hc
    have hc := (hplain c hc).1
    simp only [isPlain, Bool.and_eq_true, bne_iff_ne] at hc
    exact hc.1.2
  have hno : 37 ∉ 34 :: (p :: name ++ [34, 58, 34]) := by
    intro h
    rcases List.mem_cons.mp h with h | h
    · omega
    · rcases List.mem_append.mp h with h | h
      · exact (hplain 37 h).2 rfl
      · simp at h
  have hself : like (fieldPattern (p :: name) (34 :: rest))
      (34 :: (p :: name ++ 34 :: 58 :: (quote value ++ [125]))) =
        like rest (body value ++ [34, 125]) := by
    have hmatch := like_append_self hno rest (body value ++ [34, 125])
    simpa [fieldPattern, quote] using hmatch
  have hvalue : (quote value ++ [125]).tails.any (like (fieldPattern (p :: name) (34 :: rest))) =
      [125].tails.any (like (fieldPattern (p :: name) (34 :: rest))) :=
    tails_any_quote hclear hp (Or.inr rfl) (hmarks 125 (by decide)) value []
  rw [quote, body_of_isPlain fun c hc => (hplain c hc).1, List.cons_append, List.append_assoc,
    List.singleton_append, List.tails, List.any_cons, hself]
  rw [fieldPattern, tails_any_append hname, ← fieldPattern,
    tails_any_quote_of_ne hp (hmarks 58 (by decide))]
  rw [fieldPattern, tails_any_of_ne (by omega), ← fieldPattern, hvalue]
  rw [fieldPattern, tails_any_of_ne (by omega)]
  simp [like]

/-- A pattern for the last field of an object, with a `%` on both sides, matches the object if and
only if what it has for the value matches the value. -/
theorem like_dumps (hclear : Clear (p :: name)) (hp : p ≠ 37)
    (hplain : ∀ c ∈ p :: name, isPlain c = true ∧ c ≠ 37)
    (hmarks : ∀ c ∈ [44, 58, 125], matchesChar p c = false) {fields : List (Points × Points)}
    (hfields : ∀ f ∈ fields, Differs p f.1) (value rest : Points) :
    like (37 :: fieldPattern (p :: name) (34 :: rest)) (dumps (fields ++ [(p :: name, value)])) =
      like rest (body value ++ [34, 125]) := by
  have hcomma := hmarks 44 (by decide)
  rw [like_percent, dumps]
  rw [fieldPattern, tails_any_of_ne (by omega), ← fieldPattern]
  induction fields with
  | nil =>
    have hfield := tails_any_field hclear hp hplain hmarks value rest
    simpa [dumpsFields] using hfield
  | cons f fields ih =>
    obtain ⟨n, other, hother, hall, hfirst⟩ := hfields f List.mem_cons_self
    rw [List.cons_append, dumpsFields_cons_append, List.append_assoc, List.cons_append,
      List.append_assoc, hother, tails_any_name hp (hmarks 58 (by decide)) (hother ▸ hall) hfirst,
      List.cons_append, tails_any_quote hclear hp (Or.inl rfl) hcomma]
    rw [fieldPattern, tails_any_of_ne (by omega), ← fieldPattern]
    exact ih fun g hg => hfields g (List.mem_cons_of_mem f hg)

end Object

/-! ## Strings are read back -/

/-- What the reader of strings makes of a written character. -/
def marks (c : ℕ) : List (ℕ × Bool) :=
  if c = 34 ∨ c = 92 ∨ 32 ≤ c ∧ c ≤ 126 ∨ c ∈ [8, 12, 10, 13, 9] then [(c, false)]
  else if c < 0x10000 then [(c, true)]
  else
    [((0xd800 + (c - 0x10000) / 0x400) % 0x10000, true),
      ((0xdc00 + (c - 0x10000) % 0x400) % 0x10000, true)]

theorem chars_hex (n : ℕ) (t : Points) :
    Json.chars (92 :: 117 :: (hex n ++ t)) =
      (Json.chars t).map fun r => ((n % 0x10000, true) :: r.1, r.2) := by
  have hdigit : ∀ m, Json.hexValue (Json.hexDigit (m % 16)) = some (m % 16) := fun m =>
    Json.hexValue_hexDigit (Nat.mod_lt m (by omega))
  have hvalue : 4096 * (n / 4096 % 16) + 256 * (n / 256 % 16) + 16 * (n / 16 % 16) + n % 16 =
      n % 0x10000 := by
    omega
  rw [Json.chars.eq_def]
  simp [hex, Json.hex4, hdigit, hvalue]

/-- A written character is read as its marks. -/
theorem chars_escape (c : ℕ) (t : Points) :
    Json.chars (escape c ++ t) = (Json.chars t).map fun r => (marks c ++ r.1, r.2) := by
  have hletter : ∀ e n, Json.unescape e = some n → e ≠ 117 →
      Json.chars (92 :: e :: t) = (Json.chars t).map fun r => ((n, false) :: r.1, r.2) := by
    intro e n he hne
    rw [Json.chars.eq_def]
    simp [he, hne]
  unfold escape
  split
  · rename_i hc
    rcases hc with rfl | rfl
    · exact hletter 34 34 rfl (by decide)
    · exact hletter 92 92 rfl (by decide)
  · rename_i hquote
    split
    · rename_i hplain
      have hmarks : marks c = [(c, false)] := if_pos (.inr (.inr (.inl hplain)))
      rw [hmarks, List.singleton_append, Json.chars.eq_def]
      simp only [not_or] at hquote
      have hcontrol : ¬c < 32 := by omega
      simp [hquote.1, hquote.2, hcontrol]
    · rename_i hplain
      split
      · rename_i hc
        subst hc
        exact hletter 98 8 rfl (by decide)
      · split
        · rename_i hc
          subst hc
          exact hletter 102 12 rfl (by decide)
        · split
          · rename_i hc
            subst hc
            exact hletter 110 10 rfl (by decide)
          · split
            · rename_i hc
              subst hc
              exact hletter 114 13 rfl (by decide)
            · split
              · rename_i hc
                subst hc
                exact hletter 116 9 rfl (by decide)
              · have hother : ¬(c = 34 ∨ c = 92 ∨ 32 ≤ c ∧ c ≤ 126 ∨ c ∈ [8, 12, 10, 13, 9]) := by
                  simp only [List.mem_cons, List.not_mem_nil, or_false]
                  omega
                split
                · rename_i hbasic
                  have hmarks : marks c = [(c % 0x10000, true)] := by
                    rw [marks, if_neg hother, if_pos hbasic, Nat.mod_eq_of_lt hbasic]
                  rw [hmarks]
                  exact chars_hex c t
                · rename_i hbasic
                  rw [marks, if_neg hother, if_neg hbasic]
                  simp only [List.cons_append, List.append_assoc]
                  rw [chars_hex, chars_hex, Option.map_map]
                  rfl

theorem chars_body (s rest : Points) :
    Json.chars (body s ++ 34 :: rest) = some (s.flatMap marks, rest) := by
  induction s with
  | nil =>
    rw [body_nil, List.nil_append, Json.chars.eq_def]
    simp
  | cons c s ih =>
    rw [body_cons, List.append_assoc, chars_escape, ih]
    rfl

/-- A string ends at its first quote. -/
theorem body_append_inj (h : body s ++ 34 :: r = body t ++ 34 :: r') :
    body s = body t ∧ r = r' := by
  have hchars := congrArg Json.chars h
  rw [chars_body, chars_body] at hchars
  obtain ⟨-, rfl⟩ := Prod.mk.inj (Option.some.inj hchars)
  exact ⟨List.append_cancel_right h, rfl⟩

/-- No two characters stand for another one. -/
def Merged (s : Points) : Prop :=
  (∀ c ∈ s, c < 0x110000) ∧
    s.IsChain fun c d => ¬(0xd800 ≤ c ∧ c < 0xdc00 ∧ 0xdc00 ≤ d ∧ d < 0xe000)

/-- A mark that is the second one of a pair is the mark of itself. -/
theorem eq_of_head_marks {d : ℕ} (hd : d < 0x110000) {m : ℕ × Bool} {ms : List (ℕ × Bool)}
    (h : marks d = m :: ms) (hlow : 0xdc00 ≤ m.1) (hhigh : m.1 < 0xe000) : m.1 = d := by
  unfold marks at h
  split_ifs at h
  · rw [← (List.cons.inj h).1]
  · rw [← (List.cons.inj h).1]
  · rw [← (List.cons.inj h).1] at hlow
    change 0xdc00 ≤ (0xd800 + (d - 0x10000) / 0x400) % 0x10000 at hlow
    omega

theorem marks_ne_nil (c : ℕ) : marks c ≠ [] := by
  unfold marks
  split_ifs <;> simp

theorem joinPairs_pair {a b : ℕ} (ha : 0xd800 ≤ a ∧ a < 0xdc00) (hb : 0xdc00 ≤ b ∧ b < 0xe000)
    (rest : List (ℕ × Bool)) :
    Json.joinPairs ((a, true) :: (b, true) :: rest) =
      (0x10000 + (a - 0xd800) * 0x400 + (b - 0xdc00)) :: Json.joinPairs rest := by
  rw [Json.joinPairs, if_pos ⟨rfl, rfl, ha.1, ha.2, hb.1, hb.2⟩]

theorem joinPairs_marks (h : Merged s) : Json.joinPairs (s.flatMap marks) = s := by
  induction s with
  | nil => rfl
  | cons c s ih =>
    obtain ⟨hbound, hchain⟩ := h
    have htail : Merged s :=
      ⟨fun d hd => hbound d (List.mem_cons_of_mem c hd), hchain.of_cons⟩
    have hc : c < 0x110000 := hbound c List.mem_cons_self
    -- a character that is written as one unit starts no pair
    have hsingle : ∀ b, Json.joinPairs ((c, b) :: s.flatMap marks) = c :: s := by
      intro b
      cases s with
      | nil => rfl
      | cons d =>
        obtain ⟨m, ms, hm⟩ := List.exists_cons_of_ne_nil (marks_ne_nil d)
        have hd : d < 0x110000 := hbound d (by simp)
        have hpair := (List.isChain_cons_cons.mp hchain).1
        rw [List.flatMap_cons, hm, List.cons_append, Json.joinPairs, if_neg, ← List.cons_append,
          ← hm, ← List.flatMap_cons, ih htail]
        rintro ⟨-, -, hc1, hc2, hm1, hm2⟩
        have hmd := eq_of_head_marks hd hm hm1 hm2
        rw [hmd] at hm1 hm2
        exact hpair ⟨hc1, hc2, hm1, hm2⟩
    rw [List.flatMap_cons, marks]
    split_ifs
    · exact hsingle false
    · exact hsingle true
    · have hhigh : (0xd800 + (c - 0x10000) / 0x400) % 0x10000 = 0xd800 + (c - 0x10000) / 0x400 := by
        omega
      have hlow : (0xdc00 + (c - 0x10000) % 0x400) % 0x10000 = 0xdc00 + (c - 0x10000) % 0x400 := by
        omega
      have hvalue : 0x10000 + (0xd800 + (c - 0x10000) / 0x400 - 0xd800) * 0x400 +
          (0xdc00 + (c - 0x10000) % 0x400 - 0xdc00) = c := by
        omega
      have hpair := joinPairs_pair (a := 0xd800 + (c - 0x10000) / 0x400)
        (b := 0xdc00 + (c - 0x10000) % 0x400) (by omega) (by omega) (s.flatMap marks)
      rw [hvalue, ih htail] at hpair
      rw [hhigh, hlow]
      exact hpair

theorem string_body (h : Merged s) (rest : Points) :
    Json.string (body s ++ 34 :: rest) = some (s, rest) := by
  rw [Json.string, chars_body, Option.map_some, joinPairs_marks h]

theorem body_injective (hs : Merged s) (ht : Merged t) (h : body s = body t) : s = t := by
  have hread := string_body hs []
  rw [h, string_body ht []] at hread
  exact (Prod.mk.inj (Option.some.inj hread)).1.symm

theorem body_of_quote_eq (h : quote s ++ r = quote t ++ r') : body s = body t ∧ r = r' := by
  have hquotes : 34 :: (body s ++ 34 :: r) = 34 :: (body t ++ 34 :: r') := by
    simpa [quote] using h
  exact body_append_inj (List.cons.inj hquotes).2

/-- Objects with the same names and the same text have values of the same text. -/
theorem body_of_dumps_eq {fs gs : List (Points × Points)}
    (hnames : fs.map Prod.fst = gs.map Prod.fst) (h : dumps fs = dumps gs) :
    List.Forall₂ (fun f g => body f.2 = body g.2) fs gs := by
  have hfields : dumpsFields fs = dumpsFields gs := List.append_cancel_right (List.cons.inj h).2
  clear h
  induction fs generalizing gs with
  | nil =>
    cases gs with
    | nil => exact .nil
    | cons => cases hnames
  | cons f fs ih =>
    cases gs with
    | nil => cases hnames
    | cons g gs =>
      obtain ⟨hname, hnames⟩ := List.cons.inj hnames
      cases fs with
      | nil =>
        cases gs with
        | nil =>
          rw [dumpsFields, dumpsFields, hname] at hfields
          have hvalues := (List.cons.inj (List.append_cancel_left hfields)).2
          exact .cons (body_of_quote_eq (congrArg (· ++ []) hvalues)).1 .nil
        | cons => cases hnames
      | cons f' fs =>
        cases gs with
        | nil => cases hnames
        | cons g' gs =>
          change quote f.1 ++ 58 :: (quote f.2 ++ 44 :: dumpsFields (f' :: fs)) =
            quote g.1 ++ 58 :: (quote g.2 ++ 44 :: dumpsFields (g' :: gs)) at hfields
          rw [hname] at hfields
          have hvalues := (List.cons.inj (List.append_cancel_left hfields)).2
          obtain ⟨hvalue, hrest⟩ := body_of_quote_eq hvalues
          exact .cons hvalue (ih hnames (List.cons.inj hrest).2)

end AsciiJson
