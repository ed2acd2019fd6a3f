import Mathlib.Tactic.Common

set_option autoImplicit false

namespace RowSchema

inductive Datum where
  | null
  | int (value : Int)
  | string (text : String)
  | datetime (nanos : Int)
  | array (items : List Datum)

inductive FieldType where
  | int
  | string
  | datetime
  | array

def FieldType.Admits : FieldType → Datum → Prop
  | .int, .int _ | .string, .string _ | .datetime, .datetime _ | .array, .array _ => True
  | _, _ => False

inductive Assertion where
  | always
  | oneOf (texts : List String)
  | length (n : Nat)

def Assertion.Holds : Assertion → Datum → Prop
  | .always, _ => True
  | .oneOf texts, .string text => text ∈ texts
  | .length n, .string text => text.length = n
  | _, _ => False

structure Field where
  name : String
  type : FieldType
  assertion : Assertion

abbrev Content := List (String × Datum)

-- A value is taken as it is: none is coerced to the type of its field.
def Field.Accepts (field : Field) (content : Content) : Prop :=
  ∀ value, content.lookup field.name = some value → field.type.Admits value ∧ field.assertion.Holds value

abbrev Schema := List Field

/-- The values that are written have the types and satisfy the assertions of their fields. -/
def Schema.Accepts (schema : Schema) (content : Content) : Prop :=
  ∀ field ∈ schema, field.Accepts content

variable {field : Field} {content : Content} {value : Datum}

theorem Field.accepts_iff (written : content.lookup field.name = some value) :
    field.Accepts content ↔ field.type.Admits value ∧ field.assertion.Holds value := by
  simp [Field.Accepts, written]

theorem Field.accepts_of_unwritten (unwritten : content.lookup field.name = none) : field.Accepts content := by
  simp [Field.Accepts, unwritten]

theorem Schema.accepts_cons (rest : Schema) :
    Schema.Accepts (field :: rest) content ↔ field.Accepts content ∧ Schema.Accepts rest content :=
  List.forall_mem_cons

theorem Schema.accepts_nil : Schema.Accepts [] content := by simp [Schema.Accepts]

theorem Schema.not_accepts_of_type {schema : Schema} (declared : field ∈ schema)
    (written : content.lookup field.name = some value) (other : ¬ field.type.Admits value) :
    ¬ schema.Accepts content := by
  intro accepts
  exact other (accepts field declared value written).1

end RowSchema
