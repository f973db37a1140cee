import NeighborSearch.Json.Basic

/-! Records in JSON.

A record is written as an object with one field for each of its names, and read from an
object in which no name occurs twice, whatever the order of the fields and whatever other
fields there are. It is also read from an array that holds the values in the order of the
names, the last ones of which may be left out. `values?` gives for each name the value
that stands for it, if there is one. -/
namespace NeighborSearch.Json

/-- The value of the field with this name; refused if there are two. -/
def field? (fields : List (JsonString × Json)) (name : String) : Option (Option Json) :=
  match fields.filter fun field => field.1 == some name.toList with
  | [] => some none
  | [(_, value)] => some (some value)
  | _ => none

def values? (names : List String) : Json → Option (List (Option Json))
  | object fields =>
    if fields.all fun field => field.1.isSome then names.mapM (field? fields) else none
  | array items =>
    if items.length ≤ names.length then
      some (items.map some ++ List.replicate (names.length - items.length) none)
    else none
  | _ => none

/-- The items of an array, each read alike. -/
def list? {α : Type} (item : Json → Option α) : Json → Option (List α)
  | array items => items.mapM item
  | _ => none

end NeighborSearch.Json
