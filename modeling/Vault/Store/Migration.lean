import Vault.Store.Table

/-!
# Bringing a database up to date

Opening a database makes sure of its schema. The table of schema versions is created
when it is missing, and stays even if the rest fails. The greatest version on record
decides what happens next: the current one needs nothing, an earlier one is raised step
by step, all steps together or none, and a later one is refused.
-/

namespace Vault.Database

/-- The current schema version. -/
def currentVersion : Nat := 1

/-- The greatest version on record, zero if there is none. -/
def greatestVersion : List Int → Int
  | [] => 0
  | v :: vs => vs.foldl max v

/-- The database with a table of schema versions. -/
def withVersions (db : Database) : Database :=
  match db.versions with
  | some _ => db
  | none => { db with versions := some [] }

/-- Create the documents table and record version 1. -/
def applyFirst (db : Database) : Except StoreError Database :=
  match db.documents with
  | some _ => .error (.database "table documents already exists")
  | none =>
    match ({ db with documents := some {} } : Database).addVersion 1 with
    | (.ok _, db) => .ok db
    | (.error e, _) => .error e

/-- Bring the schema up to date. -/
def migrate (db : Database) : Except StoreError Unit × Database :=
  let db := db.withVersions
  let v := greatestVersion (db.versions.getD [])
  if v < 0 ∨ 2 ^ 32 ≤ v then
    (.error (.database ("Integer " ++ toString v ++ " out of range at index 0")), db)
  else if (currentVersion : Int) < v then
    (.error (.migration ("database schema version " ++ toString v ++
      " is newer than supported version " ++ toString currentVersion)), db)
  else if v < (currentVersion : Int) then
    match db.applyFirst with
    | .ok db => (.ok (), db)
    | .error e => (.error e, db)
  else (.ok (), db)

end Vault.Database
