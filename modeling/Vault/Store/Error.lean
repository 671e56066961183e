/-!
# What can go wrong in a store

A missing document is the one failure that a caller is told about in so many words;
every other one stays behind the same wording and is only logged.
-/

namespace Vault

/-- A failure of a store. -/
inductive StoreError where
  /-- The database failed. -/
  | database (text : String)
  /-- There is no document of this id. -/
  | notFound (id : String)
  /-- There is a document of this id already. -/
  | alreadyExists (id : String)
  /-- What is stored makes no sense. -/
  | invalidData (text : String)
  /-- The schema cannot be brought up to date. -/
  | migration (text : String)
  /-- The store could not carry out the work. -/
  | task (text : String)
  /-- Reading or writing failed. -/
  | io (text : String)
  deriving DecidableEq, Repr

namespace StoreError

/-- The failure in words. -/
def message : StoreError → String
  | database text => "database error: " ++ text
  | notFound id => "document not found: " ++ id
  | alreadyExists id => "document already exists: " ++ id
  | invalidData text => "invalid data: " ++ text
  | migration text => "migration error: " ++ text
  | task text => "storage task failed: " ++ text
  | io text => "I/O error: " ++ text

/-- Whether the failure is a missing document. -/
def isNotFound : StoreError → Bool
  | notFound _ => true
  | _ => false

end StoreError

end Vault
