import Mathlib.Data.List.Basic
import Mathlib.Data.String.Basic

/-!
# JSON values

A value as a program sees it after parsing. The fields of an object are listed in the order of their
keys, the form in which a program that sorts keys writes them, so that equal objects are equal
lists.
-/

/-- A JSON value. -/
inductive JsonValue
  | null
  | bool (b : Bool)
  | num (n : ℤ)
  | str (s : String)
  | arr (items : List JsonValue)
  | obj (fields : List (String × JsonValue))
  deriving Repr

/-- The fields of a JSON object. -/
abbrev JsonFields := List (String × JsonValue)

namespace JsonValue

/-! ## Equality -/

mutual

/-- Two values are equal. -/
def beq : JsonValue → JsonValue → Bool
  | .null, .null => true
  | .bool a, .bool b => a == b
  | .num a, .num b => a == b
  | .str a, .str b => a == b
  | .arr a, .arr b => beqItems a b
  | .obj a, .obj b => beqFields a b
  | _, _ => false
  termination_by structural a => a

/-- Two arrays are equal. -/
def beqItems : List JsonValue → List JsonValue → Bool
  | [], [] => true
  | a :: as, b :: bs => beq a b && beqItems as bs
  | _, _ => false
  termination_by structural a => a

/-- Two objects are equal. -/
def beqFields : JsonFields → JsonFields → Bool
  | [], [] => true
  | (k, a) :: as, (l, b) :: bs => k == l && (beq a b && beqFields as bs)
  | _, _ => false
  termination_by structural a => a

end

mutual

theorem beq_iff : ∀ a b : JsonValue, beq a b = true ↔ a = b
  | .null, b => by cases b <;> simp [beq]
  | .bool a, b => by cases b <;> simp [beq]
  | .num a, b => by cases b <;> simp [beq]
  | .str a, b => by cases b <;> simp [beq]
  | .arr a, b => by
    cases b with
    | arr => rw [beq, beqItems_iff, arr.injEq]
    | _ => simp [beq]
  | .obj a, b => by
    cases b with
    | obj => rw [beq, beqFields_iff, obj.injEq]
    | _ => simp [beq]
  termination_by structural a => a

theorem beqItems_iff : ∀ as bs : List JsonValue, beqItems as bs = true ↔ as = bs
  | [], bs => by cases bs <;> simp [beqItems]
  | a :: as, bs => by
    cases bs with
    | nil => simp [beqItems]
    | cons => rw [beqItems, Bool.and_eq_true, beq_iff, beqItems_iff, List.cons.injEq]
  termination_by structural a => a

theorem beqFields_iff : ∀ as bs : JsonFields, beqFields as bs = true ↔ as = bs
  | [], bs => by cases bs <;> simp [beqFields]
  | (k, a) :: as, bs => by
    cases bs with
    | nil => simp [beqFields]
    | cons b =>
      obtain ⟨l, b⟩ := b
      rw [beqFields, Bool.and_eq_true, Bool.and_eq_true, beq_iff, beqFields_iff, beq_iff_eq,
        List.cons.injEq, Prod.mk.injEq, and_assoc]
  termination_by structural a => a

end

instance : DecidableEq JsonValue :=
  fun a b => decidable_of_iff _ (beq_iff a b)

/-- The text of a value, empty for anything else. -/
def text : JsonValue → String
  | .str s => s
  | _ => ""

/-- The fields of an object. -/
def fields? : JsonValue → Option JsonFields
  | .obj fields => some fields
  | _ => none

/-- The items of an array. -/
def items? : JsonValue → Option (List JsonValue)
  | .arr items => some items
  | _ => none

end JsonValue

/-! ## Fields -/

namespace JsonFields

/-- The value of a field. -/
def get? : JsonFields → String → Option JsonValue
  | [], _ => none
  | (k, v) :: fields, key => if k = key then some v else get? fields key

/-- Set a field, in its place in the order of the keys. -/
def set : JsonFields → String → JsonValue → JsonFields
  | [], key, value => [(key, value)]
  | (k, v) :: fields, key, value =>
    if k = key then (key, value) :: fields
    else if key < k then (key, value) :: (k, v) :: fields
    else (k, v) :: set fields key value

variable {fields : JsonFields} {key k : String} {value : JsonValue}

@[simp]
theorem get?_nil : get? [] key = none := rfl

end JsonFields
