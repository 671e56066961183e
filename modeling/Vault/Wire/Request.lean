import Vault.Cbor.Direct
import Vault.Document

/-!
# Requests on the wire

A request is a map of one entry, from the name of the operation to its fields. It is
read as an item of any shape first, because two kinds of failure are told apart: an
operation that is absent or unknown, and bytes that are not a request at all.
-/

namespace Vault.Wire

open Cbor

/-- Why bytes are not a request. -/
inductive RequestError where
  /-- There is no operation of this name; `name` is what stood in its place. -/
  | unknownOperation (name : String)
  /-- The bytes are not a request. -/
  | malformed (reason : String)
  deriving DecidableEq, Repr

namespace RequestError

/-- The failure in words. -/
def message : RequestError → String
  | unknownOperation name => "unknown request type: " ++ name
  | malformed reason => "invalid request: " ++ reason

/-- What the caller is told. -/
def status (e : RequestError) : Status :=
  match e with
  | unknownOperation _ => .unimplemented e.message
  | malformed _ => .invalidArgument e.message

end RequestError

/-! ### Fields of an operation -/

/-- The complaint about the fields of an operation. -/
def fieldError (text : String) : String :=
  "Custom(" ++ Text.quoted text ++ ")"

/-- A text, under any number of tags. -/
def itemText (i : Item) : Except String String :=
  match i.untagged with
  | .text s => .ok s
  | i => .error (fieldError ("invalid type: " ++ i.kindName ++ ", expected str"))

/-- The values of the known fields among these entries, in the order of the entries. Every
key is a text; an unknown field may hold anything. -/
def fieldValues (known : List String) :
    List (Item × Item) → List (String × String) → Except String (List (String × String))
  | [], found => .ok found
  | (k, v) :: entries, found =>
    match itemText k with
    | .error e => .error e
    | .ok name =>
      if name ∈ known then
        if found.any fun f => f.1 == name then
          .error (fieldError (Error.duplicateFieldText name))
        else
          match itemText v with
          | .error e => .error e
          | .ok value => fieldValues known entries (found ++ [(name, value)])
      else fieldValues known entries found

/-- The value of a field that must occur. -/
def fieldValue (found : List (String × String)) (name : String) : Except String String :=
  match found.lookup name with
  | some v => .ok v
  | none => .error (fieldError (Error.missingFieldText name))

/-- The values of all these fields in the body of an operation. -/
def bodyFields (known : List String) (body : Item) : Except String (List String) :=
  match body.untagged with
  | .map entries =>
    match fieldValues known entries [] with
    | .error e => .error e
    | .ok found => known.mapM (fieldValue found)
  | i => .error (fieldError ("invalid type: " ++ i.kindName ++ ", expected map"))

/-- The request of a known operation, from the values of its fields. -/
def requestOf (tag : String) (values : List String) : Option Request :=
  match tag, values with
  | "add", [owner, content, name] => some (.add owner content name)
  | "get", [id] => some (.get id)
  | "list", [owner] => some (.list owner)
  | _, _ => none

/-- The fields of each operation, in order. -/
def operationFields : String → Option (List String)
  | "add" => some ["owner", "content", "name"]
  | "get" => some ["id"]
  | "list" => some ["owner"]
  | _ => none

/-! ### Requests -/

/-- What stands in place of an operation that is not there. -/
def absent : String := "<absent>"

/-- The request of a map's one entry. -/
def ofEntry (key body : Item) : Except RequestError Request :=
  match key with
  | .text tag =>
    match operationFields tag with
    | none => .error (.unknownOperation tag)
    | some fields =>
      match bodyFields fields body with
      | .error e => .error (.malformed (tag ++ ": " ++ e))
      | .ok values =>
        match requestOf tag values with
        | some r => .ok r
        | none => .error (.unknownOperation tag)
  | key => .error (.unknownOperation key.shown)

/-- The request that an item stands for. -/
def ofItem : Item → Except RequestError Request
  | .map [] => .error (.unknownOperation absent)
  | .map [(key, body)] => ofEntry key body
  | .map entries =>
    .error (.malformed
      ("request has " ++ toString entries.length ++ " operation entries, expected 1"))
  | .null => .error (.unknownOperation absent)
  | _ => .error (.malformed "request is not a map")

/-- The request at the front of a byte string; what stands after it is ignored. -/
def decodeRequest (b : Bytes) : Except RequestError Request :=
  if b.size = 0 then .error (.unknownOperation absent)
  else
    match Item.ofBytes b with
    | .error e => .error (.malformed e.message)
    | .ok i => ofItem i

/-- The fields of a request. -/
def requestFields : Request → List (String × String)
  | .add owner content name => [("owner", owner), ("content", content), ("name", name)]
  | .get id => [("id", id)]
  | .list owner => [("owner", owner)]

/-- The bytes of a request. -/
def encodeRequest (r : Request) : Bytes :=
  writeVariant r.tag (writeRecord ((requestFields r).map fun f => (f.1, writeText f.2)))

end Vault.Wire
