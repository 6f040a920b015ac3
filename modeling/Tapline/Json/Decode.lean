import Tapline.Json.Value
import Tapline.Text.Word

/-!
# Decoding JSON values

How the parts of a value are understood.  A structure may be written as a
record, in which fields it does not know are ignored and fields it knows may
not be repeated, or as a list of its fields in order, which may stop early.
-/

namespace Tapline.Json

def text? : Json → Option String
  | .text content => content
  | _ => none

/-- A natural number up to `largest`, written with digits alone. -/
def nat? (largest : Nat) : Json → Option Nat
  | .number literal =>
      match Text.decimal? literal with
      | some value => if value ≤ largest then some value else none
      | none => none
  | _ => none

/-- The number of a format's version, which takes at most 32 bits. -/
def version? : Json → Option Nat :=
  nat? 4294967295

/-- The items of a list, all of which have to be understood. -/
def list? {Item : Type} (decode : Json → Option Item) : Json → Option (List Item)
  | .list items => items.mapM decode
  | _ => none

def nullable? {Value : Type} (decode : Json → Option Value) :
    Json → Option (Option Value)
  | .null => some none
  | json => (decode json).map some

def required? {Value : Type} (decode : Json → Option Value) :
    Option Json → Option Value
  | some json => decode json
  | none => none

/-- A field that has a value of its own where it is missing. -/
def optional? {Value : Type} (missing : Value) (decode : Json → Option Value) :
    Option Json → Option Value
  | some json => decode json
  | none => some missing

/-- The value of a field, or none where the field is missing; no answer where
it is there more than once. -/
def fieldValue? (fields : List (String × Json)) (name : String) :
    Option (Option Json) :=
  match fields.filter (·.1 = name) with
  | [] => some none
  | [(_, value)] => some (some value)
  | _ => none

/-- The values of the fields with the given names, in that order. -/
def fields? (names : List String) : Json → Option (List (Option Json))
  | .record fields => do
      let fields ← fields.mapM fun (name, value) => name.map (·, value)
      names.mapM (fieldValue? fields)
  | .list items =>
      if items.length ≤ names.length then
        some (items.map some ++ List.replicate (names.length - items.length) none)
      else
        none
  | _ => none

end Tapline.Json
