import GlassHive.Library.JsonText
import Mathlib.Data.List.Lex
import Mathlib.Data.List.Sort

/-!
# Objects of JSON

The keys of an object, its values with a default, the replacement of values of keys that it has,
and the text with the keys in their order.
-/

namespace Json

/-- The fields of an object, in the order in which they were set. -/
abbrev Fields := List (Points × Json)

/-- The object has a key. -/
def has (fields : Fields) (key : String) : Bool :=
  fields.any fun f => f.1 == Points.ofString key

/-- Every key of the object is among the given ones. -/
def keysWithin (fields : Fields) (keys : List String) : Bool :=
  fields.all fun f => keys.any fun key => f.1 == Points.ofString key

/-- The keys of the object are the given ones. -/
def keysAre (fields : Fields) (keys : List String) : Bool :=
  keys.all (has fields) && keysWithin fields keys

/-- The value of a key, or a default. -/
def getOr (fields : Fields) (key : String) (default : Json) : Json :=
  (fields.lookup (Points.ofString key)).getD default

/-- The object with other values for some of its keys. -/
def update (fields updates : Fields) : Fields :=
  fields.map fun f => (f.1, (updates.lookup f.1).getD f.2)

variable {fields updates : Fields}

theorem any_update (p : Points → Bool) :
    ((update fields updates).any fun f => p f.1) = fields.any fun f => p f.1 := by
  simp [update, List.any_map, Function.comp_def]

theorem has_update (key : String) : has (update fields updates) key = has fields key :=
  any_update fun k => k == Points.ofString key

theorem keysWithin_update (keys : List String) :
    keysWithin (update fields updates) keys = keysWithin fields keys := by
  simp [keysWithin, update, List.all_map, Function.comp_def]

theorem lookup_update (k : Points) :
    (update fields updates).lookup k =
      (fields.lookup k).map fun v => (updates.lookup k).getD v := by
  induction fields with
  | nil => rfl
  | cons f fields ih =>
    unfold update at ih ⊢
    rw [List.map_cons, List.lookup_cons, List.lookup_cons, ih]
    cases hk : k == f.1 with
    | true => simp [eq_of_beq hk]
    | false => rfl

/-- The object has a key exactly when it has a value for it. -/
theorem isSome_lookup (k : Points) : (fields.lookup k).isSome = fields.any fun f => f.1 == k := by
  induction fields with
  | nil => rfl
  | cons f fields ih =>
    rw [List.lookup_cons, List.any_cons]
    cases hk : k == f.1 with
    | true => simp [eq_of_beq hk]
    | false =>
      have hk' : (f.1 == k) = false := by
        rw [beq_eq_false_iff_ne] at hk ⊢
        exact hk.symm
      rw [hk', ih, Bool.false_or]

/-- Replacing once more changes nothing. -/
theorem update_update : update (update fields updates) updates = update fields updates := by
  unfold update
  rw [List.map_map]
  refine List.map_congr_left fun f _ => ?_
  cases h : updates.lookup f.1 <;> simp [h]

/-! ## Ordered keys -/

mutual

/-- The value with the fields of its objects in the order of their keys. -/
def sortKeys : Json → Json
  | .arr items => .arr (sortKeysItems items)
  | .obj fields => .obj ((sortKeysFields fields).insertionSort fun f g => f.1 ≤ g.1)
  | v => v
  termination_by structural v => v

/-- The items of an array. -/
def sortKeysItems : List Json → List Json
  | [] => []
  | v :: vs => sortKeys v :: sortKeysItems vs
  termination_by structural vs => vs

/-- The fields of an object, in their own order. -/
def sortKeysFields : Fields → Fields
  | [] => []
  | (k, v) :: fs => (k, sortKeys v) :: sortKeysFields fs
  termination_by structural fs => fs

end

/-- `json.dumps` with sorted keys, without white space. -/
def dumpsSorted (v : Json) : Points :=
  dumps (sortKeys v)

/-! ## Values that are read back -/

/-- Whether a value is read back can be computed. -/
instance decidableReadable (digits : ℕ) :
    ∀ (depth : ℕ) (v : Json), Decidable (Readable digits depth v)
  | 0, .null | _ + 1, .null => .isTrue trivial
  | 0, .bool _ | _ + 1, .bool _ => .isTrue trivial
  | 0, .int n | _ + 1, .int n => inferInstanceAs (Decidable ((decimal n.natAbs).length ≤ digits))
  | 0, .float _ | _ + 1, .float _ => .isFalse id
  | 0, .str _ | _ + 1, .str _ => .isTrue trivial
  | 0, .arr _ => .isFalse id
  | 0, .obj _ => .isFalse id
  | depth + 1, .arr vs =>
    haveI := decidableReadable digits depth
    inferInstanceAs (Decidable (∀ v ∈ vs, Readable digits depth v))
  | depth + 1, .obj fs =>
    haveI := decidableReadable digits depth
    inferInstanceAs (Decidable ((fs.map Prod.fst).Nodup ∧ ∀ f ∈ fs, Readable digits depth f.2))
  termination_by structural depth => depth

end Json
