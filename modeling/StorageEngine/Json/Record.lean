import StorageEngine.Identifier
import StorageEngine.Json.Value

/-!
# Records as JSON

A record is written as an object with its fields in order.  It is read from an object that
has every field exactly once, in any order, or from an array of exactly the fields in order.
Fields that the record does not have are skipped, or refused where the record says so.
-/

namespace StorageEngine

namespace Json

/-- The compact text of an object, from the names and the texts of its members. -/
def renderRecord (fields : List (String × String)) : String :=
  let members := fields.map fun (name, text) => s!"\"{name}\":{text}"
  "\x7b" ++ String.intercalate "," members ++ "\x7d"

/-- The code points of a text. -/
def pointsOf (text : String) : List Nat := text.toList.map Char.toNat

/-- The value of the only member with a given name. -/
def member? (members : List (List Nat × Json)) (name : String) : Option Json :=
  match members.filter fun member => member.1 == pointsOf name with
  | [(_, value)] => some value
  | _ => none

/-- The fields of a record, in the order of their names.  With `closed`, a member that is no
field is refused. -/
def fields? (names : List String) (closed : Bool) : Json → Option (List Json)
  | .array items => if items.length = names.length then some items else none
  | .object members =>
    if members.all fun member =>
        isText member.1 && (!closed || names.any fun name => pointsOf name == member.1)
    then names.mapM (member? members)
    else none
  | _ => none

/-- A natural number below a limit. -/
def natural? (limit : Nat) : Json → Option Nat
  | .number (some value) => if value < limit then some value else none
  | _ => none

end Json

/-! ## Identifiers -/

/-- The JSON text of a page. -/
def PageId.toJson (page : PageId) : String :=
  Json.renderRecord
    [("table_id", toString page.table.toNat), ("page_no", toString page.no.toNat)]

/-- The page that a JSON text spells. -/
def PageId.ofJson? (text : String) : Option PageId := do
  let [table, no] ← Json.fields? ["table_id", "page_no"] false (← Json.parse? text) | none
  return ⟨UInt32.ofNat (← table.natural? UInt32.size), UInt32.ofNat (← no.natural? UInt32.size)⟩

/-- The JSON text of a transaction: its number. -/
def TransactionId.toJson (txn : TransactionId) : String := toString txn.number.toNat

/-- The transaction that a JSON text spells. -/
def TransactionId.ofJson? (text : String) : Option TransactionId := do
  return ⟨UInt64.ofNat (← (← Json.parse? text).natural? UInt64.size)⟩

end StorageEngine
