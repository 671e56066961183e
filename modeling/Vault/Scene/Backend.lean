import Vault.Retention.Crew
import Vault.Store.Memory
import Vault.Store.Migration
import Vault.Store.Scripted

/-!
# The stores of a rehearsal

A rehearsal runs on any of the stores: in memory, in a database that lives as long as
the rehearsal, in a database file that can be closed, damaged and opened again, or on a
store that plays a part.
-/

namespace Vault

/-- A store of one make or another. -/
inductive Backend where
  /-- In memory. -/
  | memory (m : Memory)
  /-- In a database of its own. -/
  | table (db : Database)
  /-- In a file, which holds a database unless it is damaged. Whoever began to work on it
goes on with it; `isOpen` is whether anybody else can begin. -/
  | file (contents : Option Database) (isOpen : Bool)
  /-- Playing a part. -/
  | scripted (s : Scripted)

namespace Backend

/-- The database of a new file. -/
def freshDatabase : Database :=
  (Database.migrate {}).2

/-- The failure of a file that is damaged. -/
def notADatabase : StoreError :=
  .database "file is not a database"

/-- Work on the database in a file. -/
def onFile {α : Type} (contents : Option Database) (isOpen : Bool)
    (f : Database → Except StoreError α × Database) : Except StoreError α × Backend :=
  match contents with
  | some db =>
    let (r, db) := f db
    (r, file (some db) isOpen)
  | none => (.error notADatabase, file none isOpen)

instance : Store Backend where
  insert d now b e :=
    match b with
    | memory m =>
      let (r, m, e) := Store.insert d now m e
      (r, memory m, e)
    | table db =>
      let (r, db, e) := Store.insert d now db e
      (r, table db, e)
    | file contents isOpen =>
      let (doc, e) := d.document now e
      let (r, b) := onFile contents isOpen fun db => db.insert doc
      (r, b, e)
    | scripted s =>
      let (r, s, e) := Store.insert d now s e
      (r, scripted s, e)
  get id b :=
    match b with
    | memory m => ((Store.get id m).1, b)
    | table db => ((Store.get id db).1, b)
    | file contents isOpen => onFile contents isOpen (Store.get id)
    | scripted s =>
      let (r, s) := Store.get id s
      (r, scripted s)
  list owner b :=
    match b with
    | memory m => ((Store.list owner m).1, b)
    | table db => ((Store.list owner db).1, b)
    | file contents isOpen => onFile contents isOpen (Store.list owner)
    | scripted s =>
      let (r, s) := Store.list owner s
      (r, scripted s)
  deleteBefore cutoff b :=
    match b with
    | memory m =>
      let (r, m) := Store.deleteBefore cutoff m
      (r, memory m)
    | table db =>
      let (r, db) := Store.deleteBefore cutoff db
      (r, table db)
    | file contents isOpen => onFile contents isOpen (Store.deleteBefore cutoff)
    | scripted s =>
      let (r, s) := Store.deleteBefore cutoff s
      (r, scripted s)

/-- How long a deletion takes. -/
def pace : Backend → Retention.Pace
  | scripted s => if s.hang then none else some s.delay
  | _ => some 0

/-- Whether the store works aside, so that others can go on in the meantime. -/
def worksAside : Backend → Bool
  | table _ => true
  | file .. => true
  | _ => false

/-- Whether there is a store to work on. -/
def isReady : Backend → Bool
  | file _ isOpen => isOpen
  | _ => true

/-! ### Files -/

/-- How a file is opened again. -/
inductive Reopening where
  /-- As it is. -/
  | plain
  /-- After it was overwritten. -/
  | garbage
  /-- By the name of its directory. -/
  | directory
  deriving DecidableEq, Repr

/-- Open a file that was closed. -/
def openFile (contents : Option Database) : Except StoreError Unit × Backend :=
  match contents with
  | none => (.error notADatabase, file none false)
  | some db =>
    match db.migrate with
    | (.ok _, db) => (.ok (), file (some db) true)
    | (.error e, db) => (.error e, file (some db) false)

/-- Close a file and open it again. -/
def reopen (how : Reopening) (contents : Option Database) : Except StoreError Unit × Backend :=
  match how with
  | .plain => openFile contents
  | .garbage => openFile none
  | .directory => (.error (.database "unable to open database file"), file contents false)

/-- What an administrator may do to a file behind the store's back. -/
inductive Tampering where
  /-- Remove the documents table. -/
  | dropDocuments
  /-- Plant a row whose content is bytes. -/
  | blobContent (id owner : String)
  /-- Plant a row whose time of creation is a text. -/
  | textCreatedAt (id owner : String)
  /-- Record a schema version. -/
  | addVersion (v : Int)
  deriving DecidableEq, Repr

/-- Tamper with a database. -/
def tamper (t : Tampering) (db : Database) : Except StoreError Unit × Database :=
  match t with
  | .dropDocuments => db.dropDocuments
  | .blobContent id owner => db.plant id owner (.blob ByteArray.empty) (.integer 5)
  | .textCreatedAt id owner => db.plant id owner (.text "hello") (.text "later")
  | .addVersion v => db.addVersion v

end Backend

end Vault
