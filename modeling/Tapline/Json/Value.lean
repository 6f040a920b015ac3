/-!
# JSON values

A value as a JSON document holds it.  Numbers keep their spelling and records
keep the order of their fields, repeated ones included; what a repeated field
or a fraction means is for the reader of the value to decide.

A JSON text may spell half of a surrogate pair and so no character at all.
Such a text has no content (`none`).
-/

namespace Tapline

/-- A JSON value. -/
inductive Json where
  | null
  | bool (value : Bool)
  | number (literal : String)
  | text (content : Option String)
  | list (items : List Json)
  | record (fields : List (Option String × Json))
deriving Inhabited

namespace Json

def ofText (content : String) : Json :=
  .text (some content)

/-- A natural number in plain decimal notation. -/
def ofNat (value : Nat) : Json :=
  .number (toString value)

/-- The value if there is one, and otherwise null. -/
def ofOption {Value : Type} (encode : Value → Json) : Option Value → Json
  | some value => encode value
  | none => .null

def ofTexts (contents : List String) : Json :=
  .list (contents.map ofText)

/-- A record with the given fields in order. -/
def ofFields (fields : List (String × Json)) : Json :=
  .record (fields.map fun (name, value) => (some name, value))

/-- Whether a field comes no later than another in the order of their names. -/
def fieldLe (left right : Option String × Json) : Bool :=
  match left.1, right.1 with
  | none, _ => true
  | some _, none => false
  | some left, some right => !decide (right < left)

mutual

/-- The value with the fields of all its records in the order of their names. -/
def sorted : Json → Json
  | .list items => .list (sortedItems items)
  | .record fields => .record ((sortedFields fields).mergeSort fieldLe)
  | value => value

def sortedItems : List Json → List Json
  | [] => []
  | item :: items => item.sorted :: sortedItems items

def sortedFields : List (Option String × Json) → List (Option String × Json)
  | [] => []
  | (name, value) :: fields => (name, value.sorted) :: sortedFields fields

end

end Json

end Tapline
