import Mathlib.Data.List.Find
import Mathlib.Tactic.Common
import Vault.Host
import Vault.Proofs.Store.History
import Vault.Scene.Backend

/-!
# Two stores that answer alike

The store in memory and the one in a table have little in common inside. One keeps
documents, the other rows of unchecked cells that are read as documents again; one numbers
its documents from zero by a counter of its own, the other by the number of the row; one
looks for a key before it adds a document, the other finds that a value must be unique; and
the one in a table can be closed and opened again, which brings its schema up to date.

None of this can be seen from outside. A store in memory has an image in a table
(`Vault.Memory.toDatabase`), and while the keys in memory are the ids of the documents, every
operation of the table on an image is the image of the operation in memory
(`Vault.Store.Mirrors`). So whatever is done to both, from the empty
store on, they give the same replies (`Vault.Store.stores_answer_alike`). That a failed
insertion spends no number and that a sweep leaves the numbering alone is in the image
already: the number of the last row is the counter.
-/

namespace Vault

/-! ### What can be done to a store -/

namespace Store

/-- Something to be done to a store. -/
inductive Operation where
  /-- Set the clock. -/
  | setClock (t : Timestamp)
  /-- Add the document of a draft. -/
  | insert (d : Draft)
  /-- Fetch a document. -/
  | get (id : String)
  /-- List the documents of an owner. -/
  | list (owner : String)
  /-- Delete the documents created before a cutoff. -/
  | deleteBefore (cutoff : Timestamp)
  /-- Close the store and open it again. -/
  | reopen

/-- What comes of it. -/
inductive Reply where
  /-- It is done, or cannot be. -/
  | done (r : Except StoreError Unit)
  /-- A document. -/
  | document (r : Except StoreError Document)
  /-- A list of documents. -/
  | documents (r : Except StoreError (List Document))
  /-- A number. -/
  | count (r : Except StoreError ℕ)

variable {σ : Type} [Store σ]

/-- Do something to a store, where `opening` says what closing and opening it comes to. -/
def Operation.perform (opening : σ → Except StoreError Unit × σ) (h : Host σ) :
    Operation → Reply × Host σ
  | .setClock t => (.done (.ok ()), { h with now := t })
  | .insert d => (.document (h.insert d).1, (h.insert d).2)
  | .get id => (.document (h.get id).1, (h.get id).2)
  | .list owner => (.documents (h.list owner).1, (h.list owner).2)
  | .deleteBefore cutoff => (.count (h.deleteBefore cutoff).1, (h.deleteBefore cutoff).2)
  | .reopen => (.done (opening h.store).1, { h with store := (opening h.store).2 })

/-- What comes of one thing after another. -/
def replies (opening : σ → Except StoreError Unit × σ) : List Operation → Host σ → List Reply
  | [], _ => []
  | op :: ops, h => (op.perform opening h).1 :: replies opening ops (op.perform opening h).2

end Store

/-! ### The image of a store in memory -/

/-- The row of an entry. Rows are numbered from one. -/
def Entry.row (e : Entry) : Row := .ofDocument (e.seq + 1) e.document

/-- The image of a store in memory: a database whose schema is up to date. -/
def Memory.toDatabase (m : Memory) : Database where
  versions := some [1]
  documents := some ⟨m.entries.map Entry.row, m.nextSeq⟩

theorem Timestamp.clamp_micros (t : Timestamp) : clamp t.micros = t :=
  ext_micros (by have := t.least_le; have := t.le_greatest; simp only [clamp]; omega)

theorem Timestamp.eq_iff_micros {s t : Timestamp} : s = t ↔ s.micros = t.micros :=
  ⟨congrArg _, ext_micros⟩

theorem Timestamp.lt_iff_micros {s t : Timestamp} : s < t ↔ s.micros < t.micros := Iff.rfl

namespace Entry

/-- The row of an entry reads as its document. -/
@[simp] theorem document_row (e : Entry) : e.row.document = .ok e.document := by
  simp only [row, Row.ofDocument, Row.document, Timestamp.clamp_micros]

/-- Rows are listed in the order of their entries. -/
theorem before_row (a b : Entry) : a.row.before b.row = a.before b := by
  have hlt (a b : Entry) : a.row.createdAt.lt b.row.createdAt =
      decide (a.document.createdAt.micros < b.document.createdAt.micros) := rfl
  have hseq : b.row.seq ≤ a.row.seq ↔ b.seq ≤ a.seq := Nat.add_le_add_iff_right
  rw [Bool.eq_iff_iff]
  simp only [Row.before, before, hlt, hseq, Bool.or_eq_true, Bool.and_eq_true, Bool.not_eq_true',
    decide_eq_true_eq, decide_eq_false_iff_not, Timestamp.eq_iff_micros, Timestamp.lt_iff_micros]
  omega

end Entry

namespace Memory

variable {m : Memory}

theorem mapM_document (es : List Entry) :
    (es.map Entry.row).mapM Row.document = .ok (es.map (·.document)) := by
  induction es with
  | nil => rfl
  | cons e es ih =>
    rw [List.map_cons, List.mapM_cons, ih, Entry.document_row]
    rfl

/-- Adding a document: a value that is not unique is an id that is taken. -/
theorem insert_toDatabase (hm : m.KeyedById) (d : Document) :
    m.toDatabase.insert d = ((m.commit d).1, (m.commit d).2.toDatabase) := by
  have hany : (m.entries.map Entry.row).any (fun r => r.id == d.id) =
      m.entries.any fun e => e.document.id == d.id := List.any_map
  rw [Database.insert, Database.onDocuments, toDatabase]
  dsimp only [Database.addRow, Row.ofDocument]
  rw [hany]
  obtain ⟨⟨e, he, hid⟩, hcommit⟩ | ⟨hfree, hcommit⟩ := hm.commit_cases d
  · have htaken : (m.entries.any fun e => e.document.id == d.id) = true :=
      List.any_eq_true.mpr ⟨e, he, beq_iff_eq.mpr hid⟩
    rw [htaken, hcommit]
    rfl
  · have hnone : (m.entries.any fun e => e.document.id == d.id) = false :=
      List.any_eq_false.mpr fun e he hc => hfree e he (beq_iff_eq.mp hc)
    rw [hnone, hcommit]
    rfl

/-- Fetching a document: the rows of an id are those of the entries under it. -/
theorem get_toDatabase (hm : m.KeyedById) (id : String) : m.toDatabase.get id = m.get id := by
  have hkey : m.find? id = m.entries.find? fun e => e.document.id == id :=
    List.find?_congr fun e he => by rw [hm e he]
  have hfind : (m.entries.map Entry.row).find? (fun r => r.id == id) =
      (m.find? id).map Entry.row := by
    rw [hkey]
    exact List.find?_map ..
  rw [Database.get, toDatabase, get]
  dsimp only
  rw [hfind]
  rcases m.find? id with _ | e
  · rfl
  · exact e.document_row

/-- Listing documents: sorting rows is sorting entries. -/
theorem list_toDatabase (m : Memory) (owner : String) :
    m.toDatabase.list owner = .ok (m.list owner) := by
  have hmine : (m.entries.map Entry.row).filter (fun r => r.owner == owner) =
      (m.entries.filter fun e => e.document.owner == owner).map Entry.row := List.filter_map ..
  rw [Database.list, toDatabase, list]
  dsimp only
  rw [hmine, ← List.map_mergeSort (fun a _ b _ => (Entry.before_row a b).symm), ← List.map_take,
    mapM_document]

/-- Deleting documents: an entry expires when its row does. -/
theorem deleteBefore_toDatabase (m : Memory) (cutoff : Timestamp) :
    m.toDatabase.deleteBefore cutoff =
      (.ok (m.deleteBefore cutoff).1, (m.deleteBefore cutoff).2.toDatabase) := by
  have hexpired : (fun r : Row => r.createdAt.lt (.integer cutoff.micros)) ∘ Entry.row =
      expired cutoff := rfl
  rw [Database.deleteBefore, Database.onDocuments, toDatabase, deleteBefore, toDatabase]
  dsimp only
  rw [List.countP_map, List.filter_map, hexpired]
  rfl

/-- The schema of an image is up to date, so opening it again changes nothing. -/
theorem migrate_toDatabase (m : Memory) : m.toDatabase.migrate = (.ok (), m.toDatabase) := by
  rfl

end Memory

/-! ### Stores that mirror the one in memory -/

/-- The host with another store in place of its own. -/
def Host.mapStore {σ τ : Type} (f : σ → τ) (h : Host σ) : Host τ :=
  ⟨f h.store, h.now, h.entropy, h.log, h.signal⟩

namespace Store

variable {σ : Type} [Store σ] {opening : σ → Except StoreError Unit × σ} {image : Memory → σ}

/-- To close a store in memory and open it again is to keep it. -/
def keep (m : Memory) : Except StoreError Unit × Memory := (.ok (), m)

/-- **A store that mirrors the one in memory**: its operations on the images of stores that are
keyed by id are the images of the operations in memory, and closing and opening it changes
nothing. -/
structure Mirrors (opening : σ → Except StoreError Unit × σ) (image : Memory → σ) : Prop where
  insert (d : Draft) (now : Timestamp) {m : Memory} (hm : m.KeyedById) (e : Entropy) :
    Store.insert d now (image m) e =
      ((Store.insert d now m e).1, image (Store.insert d now m e).2.1, (Store.insert d now m e).2.2)
  get (id : String) {m : Memory} (hm : m.KeyedById) :
    Store.get id (image m) = ((Store.get id m).1, image (Store.get id m).2)
  list (owner : String) {m : Memory} (hm : m.KeyedById) :
    Store.list owner (image m) = ((Store.list owner m).1, image (Store.list owner m).2)
  deleteBefore (cutoff : Timestamp) {m : Memory} (hm : m.KeyedById) :
    Store.deleteBefore cutoff (image m) =
      ((Store.deleteBefore cutoff m).1, image (Store.deleteBefore cutoff m).2)
  opening {m : Memory} (hm : m.KeyedById) : opening (image m) = (.ok (), image m)

/-- Keys stay ids, whatever is done. -/
theorem Operation.keyedById_perform (op : Operation) {h : Host Memory} (hh : h.store.KeyedById) :
    (op.perform keep h).2.store.KeyedById := by
  cases op with
  | insert d => exact hh.commit (d.document h.now h.entropy).1
  | deleteBefore cutoff => exact hh.deleteBefore cutoff
  | _ => exact hh

/-- One operation has the same reply on the image, and leaves the image. -/
theorem Mirrors.perform (hm : Mirrors opening image) (op : Operation) {h : Host Memory}
    (hh : h.store.KeyedById) :
    op.perform opening (h.mapStore image) =
      ((op.perform keep h).1, (op.perform keep h).2.mapStore image) := by
  cases op with
  | setClock t => rfl
  | insert d =>
    simp only [Operation.perform, Host.insert, Host.mapStore, hm.insert d h.now hh]
  | get id =>
    simp only [Operation.perform, Host.get, Host.mapStore, hm.get id hh]
  | list owner =>
    simp only [Operation.perform, Host.list, Host.mapStore, hm.list owner hh]
  | deleteBefore cutoff =>
    simp only [Operation.perform, Host.deleteBefore, Host.mapStore, hm.deleteBefore cutoff hh]
  | reopen =>
    simp only [Operation.perform, Host.mapStore, hm.opening hh, keep]

/-- One operation after another. -/
theorem Mirrors.replies_eq (hm : Mirrors opening image) (ops : List Operation) {h : Host Memory}
    (hh : h.store.KeyedById) :
    replies opening ops (h.mapStore image) = replies keep ops h := by
  induction ops generalizing h with
  | nil => rfl
  | cons op ops ih => rw [replies, replies, hm.perform op hh, ih (op.keyedById_perform hh)]

/-- A database mirrors the store in memory. -/
theorem mirrors_database : Mirrors Database.migrate Memory.toDatabase where
  insert d now m hm e := by
    have hinsert : Store.insert d now m.toDatabase e =
        ((m.toDatabase.insert (d.document now e).1).1,
          (m.toDatabase.insert (d.document now e).1).2, (d.document now e).2) := rfl
    rw [hinsert, Memory.insert_toDatabase hm]
    rfl
  get id m hm := Prod.ext (Memory.get_toDatabase hm id) rfl
  list owner m _ := Prod.ext (m.list_toDatabase owner) rfl
  deleteBefore cutoff m _ := m.deleteBefore_toDatabase cutoff
  opening {m} _ := m.migrate_toDatabase

/-- Close a store and open it again, if it is in a file. -/
def reopened : Backend → Except StoreError Unit × Backend
  | .file contents _ => Backend.reopen .plain contents
  | b => (.ok (), b)

/-- A database in a file does so too, and after it was closed it can be opened. -/
theorem mirrors_file : Mirrors reopened fun m => .file (some m.toDatabase) true where
  insert d now m hm e := by
    have hfile (db : Database) : Store.insert d now (Backend.file (some db) true) e =
        ((Store.insert d now db e).1, .file (some (Store.insert d now db e).2.1) true,
          (Store.insert d now db e).2.2) := rfl
    rw [hfile, mirrors_database.insert d now hm]
  get id m hm := Prod.ext (Memory.get_toDatabase hm id) rfl
  list owner m _ := Prod.ext (m.list_toDatabase owner) rfl
  deleteBefore cutoff m hm := by
    have hfile (db : Database) : Store.deleteBefore cutoff (Backend.file (some db) true) =
        ((Store.deleteBefore cutoff db).1, .file (some (Store.deleteBefore cutoff db).2) true) :=
      rfl
    rw [hfile, mirrors_database.deleteBefore cutoff hm]
  opening {m} _ := by
    simp only [reopened, Backend.reopen, Backend.openFile, Memory.migrate_toDatabase]

/-- **The stores answer alike.** A database that is brought up to date for the first time is the
image of the empty store in memory. Whatever is done from then on – the clock set, documents
added, fetched, listed and deleted – and wherever the database is closed and opened again, on
its own or in a file: with the same random bytes, every operation has the same reply on it as
in memory, the failures included. -/
theorem stores_answer_alike (ops : List Operation) (now : Timestamp) (e : Entropy) :
    ∃ db, Database.migrate {} = (.ok (), db) ∧
      replies Database.migrate ops { store := db, now, entropy := e } =
        replies keep ops { store := ({} : Memory), now, entropy := e } ∧
      replies reopened ops { store := .file (some db) true, now, entropy := e } =
        replies keep ops { store := ({} : Memory), now, entropy := e } :=
  have hempty : (⟨{}, now, e, [], {}⟩ : Host Memory).store.KeyedById := Memory.KeyedById.empty
  ⟨({} : Memory).toDatabase, rfl, mirrors_database.replies_eq ops hempty,
    mirrors_file.replies_eq ops hempty⟩

end Store

end Vault
