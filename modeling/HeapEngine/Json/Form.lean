import HeapEngine.Json
import HeapEngine.Settings

/-!
Settings, records and names as JSON documents.

A structure is an object with its fields, of which others are ignored, or an array of exactly its
fields. A value is an object whose only member is named for its kind, and null is also a string.
-/

namespace HeapEngine.Json

/-- A whole number from zero up to a limit that it does not reach. -/
def below? (limit : Nat) : Json → Option Nat
  | whole value => if 0 ≤ value ∧ value < limit then some value.toNat else none
  | _ => none

/-- A number of sixteen bits. -/
def word16? : Json → Option Nat := below? (2 ^ 16)

/-- A number of 32 bits. -/
def word32? : Json → Option Nat := below? (2 ^ 32)

/-- A number of 64 bits. -/
def word64? : Json → Option Nat := below? (2 ^ 64)

/-- The fields of a structure, by name in an object or in order in an array of as many. -/
def fields? (names : List String) : Json → Option (List (Option Json))
  | object members => some (names.map fun name => member? name members)
  | array items => if items.length = names.length then some (items.map some) else none
  | _ => none

/-- The items of an array, each read in the same way. -/
def list? {α : Type} (read : Json → Option α) : Json → Option (List α)
  | array items => items.mapM read
  | _ => none

/-- A span of time: its seconds and nanoseconds, and no other fields. -/
def duration? (document : Json) : Option Duration := do
  let names := ["secs", "nanos"]
  if let object members := document then
    guard (members.all fun entry => names.contains entry.1)
  match ← fields? names document with
  | [some seconds, some nanoseconds] =>
    Duration.ofParts? (← word64? seconds) (← word32? nanoseconds)
  | _ => none

/-- A span of time as its whole seconds and the rest. -/
def ofDuration (span : Duration) : Json :=
  object [("secs", whole span.seconds), ("nanos", whole span.subsecond)]

/-- Settings, all three of them. -/
def settings? (document : Json) : Option Settings := do
  match ← fields? ["page_size", "num_pages", "lock_timeout"] document with
  | [some pageSize, some capacity, some patience] =>
    return ⟨← word64? pageSize, ← word64? capacity, ← duration? patience⟩
  | _ => none

/-- Settings with their names. -/
def ofSettings (settings : Settings) : Json :=
  object [("page_size", whole settings.pageSize), ("num_pages", whole settings.capacity),
    ("lock_timeout", ofDuration settings.patience)]

/-- The name of a page. -/
def pageId? (document : Json) : Option PageId := do
  match ← fields? ["table_id", "page_number"] document with
  | [some table, some number] => return ⟨← word32? table, ← word32? number⟩
  | _ => none

/-- A page by its table and its number. -/
def ofPageId (id : PageId) : Json :=
  object [("table_id", whole id.table), ("page_number", whole id.number)]

/-- The place of a record. -/
def recordId? (document : Json) : Option RecordId := do
  match ← fields? ["page_id", "slot"] document with
  | [some page, some slot] => return ⟨← pageId? page, ← word16? slot⟩
  | _ => none

/-- A place by its page and its slot. -/
def ofRecordId (id : RecordId) : Json :=
  object [("page_id", ofPageId id.page), ("slot", whole id.slot)]

/-- A transaction. -/
def transactionId? (document : Json) : Option TransactionId :=
  (word64? document).map TransactionId.mk

/-- A transaction by its number alone. -/
def ofTransactionId (id : TransactionId) : Json := whole id.number

/-- A whole number of 64 bits with a sign. -/
def integer? : Json → Option Int64
  | whole value =>
    if -(2 ^ 63) ≤ value ∧ value < 2 ^ 63 then some (Int64.ofInt value) else none
  | _ => none

/-- Any number, the nearest double if it is whole. -/
def real? : Json → Option Binary64
  | whole value => some (.ofInt value)
  | real value => some value
  | _ => none

/-- A byte. -/
def byte? (document : Json) : Option UInt8 := (below? 256 document).map UInt8.ofNat

/-- A value. -/
def value? : Json → Option Value
  | string "Null" => some .null
  | object [(kind, content)] =>
    match kind, content with
    | "Null", null => some .null
    | "Integer", content => (integer? content).map .integer
    | "Real", content => (real? content).map .real
    | "Text", string text => some (.text text)
    | "Blob", content => (list? byte? content).map .blob
    | _, _ => none
  | _ => none

/-- A value under the name of its kind. -/
def ofValue : Value → Json
  | .null => string "Null"
  | .integer number => object [("Integer", whole number.toInt)]
  | .real number => object [("Real", real number)]
  | .text content => object [("Text", string content)]
  | .blob content => object [("Blob", array (content.map fun byte => whole byte.toNat))]

/-- A record; in an object its place may be missing. -/
def record? (document : Json) : Option Record := do
  match ← fields? ["record_id", "values"] document with
  | [place, some values] =>
    let place ←
      match place with
      -- A record that is stored nowhere may say so or say nothing.
      | none => some none
      | some null => some none
      | some found => (recordId? found).map some
    return ⟨place, ← list? value? values⟩
  | _ => none

/-- A record with its place, which is null if it has none. -/
def ofRecord (record : Record) : Json :=
  object
    [("record_id", match record.place with
        | some place => ofRecordId place
        | none => null),
      ("values", array (record.values.map ofValue))]

end HeapEngine.Json
