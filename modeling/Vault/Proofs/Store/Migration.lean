import Mathlib.Data.Int.Notation
import Mathlib.Tactic.Common
import Vault.Store.Migration

/-!
# All of a migration, or nothing

What a migration comes to is settled by two things: the greatest version on record
(`Vault.Database.AtVersion`) and whether there are documents. It succeeds on a database that is
current, and on one without a version and without documents; any other is refused and stays as
it is, but for a table of versions that may have been created
(`Vault.Database.migration_all_or_nothing`). To do it again changes nothing.

A migration is told to the database statement by statement, and in between the database is in a
state that nobody should find it in: documents without their indexes, or with them and no version
(`Vault.Database.Parts`). The statements stand in a transaction, which takes back what was done
when one of them fails (`Vault.Database.transaction`). So the intermediate states are never left
behind, and the whole is what is said in one piece (`Vault.Database.script_parts`).
-/

namespace Vault.Database

variable {db : Database} {u v : ℤ}

/-! ### The greatest version on record -/

/-- **The greatest version on record**, zero if there is none. -/
def AtVersion (db : Database) (v : ℤ) : Prop :=
  db.versions.getD [] = [] ∧ v = 0 ∨
    v ∈ db.versions.getD [] ∧ ∀ u ∈ db.versions.getD [], u ≤ v

/-- The version that a migration goes by is the greatest on record. -/
theorem atVersion_iff : db.AtVersion v ↔ greatestVersion (db.versions.getD []) = v := by
  rw [AtVersion]
  rcases db.versions.getD [] with _ | ⟨w, ws⟩
  · simp [greatestVersion, eq_comm]
  · have hmax : (w :: ws).max? = some (greatestVersion (w :: ws)) := List.max?_cons'
    rw [← List.max?_eq_some_iff, hmax]
    simp

theorem AtVersion.unique (hu : db.AtVersion u) (hv : db.AtVersion v) : u = v :=
  (atVersion_iff.mp hu).symm.trans (atVersion_iff.mp hv)

/-- A version above the greatest is not on record. -/
theorem AtVersion.not_mem (h : db.AtVersion v) (hu : v < u) : u ∉ db.versions.getD [] := by
  intro hmem
  obtain ⟨hnil, -⟩ | ⟨-, hle⟩ := h
  · rw [hnil] at hmem
    cases hmem
  · exact absurd (hle u hmem) (Int.not_le.mpr hu)

/-- A database that was raised to version 1 is at it. -/
theorem AtVersion.raised (h : db.AtVersion 0) (documents : Option Table) :
    AtVersion ⟨some (1 :: db.versions.getD []), documents⟩ 1 := by
  refine Or.inr ⟨List.mem_cons_self, fun u hu => ?_⟩
  rcases List.mem_cons.mp hu with rfl | hu
  · exact Int.le_refl _
  · exact Int.not_lt.mp fun hlt => h.not_mem (Int.lt_trans (by decide) hlt) hu

/-! ### The table of versions -/

theorem withVersions_eq (db : Database) :
    db.withVersions = { db with versions := some (db.versions.getD []) } := by
  obtain ⟨_ | vs, documents⟩ := db <;> rfl

/-- The table of versions is all that may be new. -/
theorem withVersions_cases (db : Database) : db.withVersions = db ∨
    db.versions = none ∧ db.withVersions = { db with versions := some [] } := by
  obtain ⟨_ | vs, documents⟩ := db
  · exact Or.inr ⟨rfl, rfl⟩
  · exact Or.inl rfl

theorem atVersion_withVersions : db.withVersions.AtVersion v ↔ db.AtVersion v := by
  rw [withVersions_eq]
  exact Iff.rfl

/-- A version that is on record has a table to stand in. -/
theorem AtVersion.withVersions_eq_self (h : db.AtVersion v) (hv : v ≠ 0) :
    db.withVersions = db := by
  obtain hself | ⟨hnone, -⟩ := withVersions_cases db
  · exact hself
  · rw [AtVersion, hnone] at h
    obtain ⟨-, hzero⟩ | ⟨hmem, -⟩ := h
    · exact absurd hzero hv
    · cases hmem

/-! ### What a migration comes to -/

section Outcomes

theorem migrate_of_unreadable (h : db.AtVersion v) (hv : v < 0 ∨ 2 ^ 32 ≤ v) :
    migrate db = (.error (.database ("Integer " ++ toString v ++ " out of range at index 0")),
      db.withVersions) := by
  rw [migrate, atVersion_iff.mp (atVersion_withVersions.mpr h), if_pos hv]

theorem migrate_of_newer (h : db.AtVersion v) (hnew : (currentVersion : ℤ) < v) (hv : v < 2 ^ 32) :
    migrate db = (.error (.migration ("database schema version " ++ toString v ++
      " is newer than supported version " ++ toString currentVersion)), db.withVersions) := by
  have hrange : ¬(v < 0 ∨ 2 ^ 32 ≤ v) := by omega
  rw [migrate, atVersion_iff.mp (atVersion_withVersions.mpr h), if_neg hrange, if_pos hnew]

theorem migrate_of_current (h : db.AtVersion 1) : migrate db = (.ok (), db) := by
  rw [migrate, h.withVersions_eq_self (by decide), atVersion_iff.mp h]
  rfl

theorem migrate_of_zero (h : db.AtVersion 0) : migrate db =
    match db.withVersions.applyFirst with
    | .ok db => (.ok (), db)
    | .error e => (.error e, db.withVersions) := by
  rw [migrate, atVersion_iff.mp (atVersion_withVersions.mpr h)]
  rfl

theorem migrate_of_occupied (h : db.AtVersion 0) {t : Table} (ht : db.documents = some t) :
    migrate db = (.error (.database "table documents already exists"), db.withVersions) := by
  have hdocs : db.withVersions.documents = some t := by rw [withVersions_eq, ht]
  rw [migrate_of_zero h, applyFirst, hdocs]

/-- **A database without a version and without documents** gets both. -/
theorem migrate_of_empty (h : db.AtVersion 0) (hdocs : db.documents = none) :
    migrate db = (.ok (), ⟨some (1 :: db.versions.getD []), some {}⟩) := by
  have hnew : (1 : ℤ) ∉ db.versions.getD [] := h.not_mem (by decide)
  rw [migrate_of_zero h, withVersions_eq, applyFirst, hdocs]
  simp only [addVersion, onVersions, if_neg hnew]

/-- **A migration succeeds in two cases**, and in all others nothing is done but that there is a
table of versions. -/
theorem migrate_cases (db : Database) :
    (db.AtVersion 1 ∧ migrate db = (.ok (), db)) ∨
    (db.AtVersion 0 ∧ db.documents = none ∧
      migrate db = (.ok (), ⟨some (1 :: db.versions.getD []), some {}⟩)) ∨
    ¬db.AtVersion 1 ∧ ¬(db.AtVersion 0 ∧ db.documents = none) ∧
      ∃ e, migrate db = (.error e, db.withVersions) := by
  have hat : db.AtVersion (greatestVersion (db.versions.getD [])) := atVersion_iff.mpr rfl
  generalize greatestVersion (db.versions.getD []) = v at hat
  have hfails (hv : v ≠ 1) (hdocs : v = 0 → db.documents ≠ none) {e : StoreError}
      (he : migrate db = (.error e, db.withVersions)) :
      ¬db.AtVersion 1 ∧ ¬(db.AtVersion 0 ∧ db.documents = none) ∧
        ∃ e, migrate db = (.error e, db.withVersions) :=
    ⟨fun hone => hv (hat.unique hone), fun hzero => hdocs (hat.unique hzero.1) hzero.2, e, he⟩
  by_cases hrange : v < 0 ∨ 2 ^ 32 ≤ v
  · exact Or.inr (Or.inr (hfails (by omega) (by omega) (migrate_of_unreadable hat hrange)))
  by_cases hnew : (currentVersion : ℤ) < v
  · have hone : 1 < v := hnew
    exact Or.inr (Or.inr (hfails (by omega) (by omega) (migrate_of_newer hat hnew (by omega))))
  rw [currentVersion] at hnew
  obtain rfl | rfl : v = 1 ∨ v = 0 := by omega
  · exact Or.inl ⟨hat, migrate_of_current hat⟩
  rcases hdocs : db.documents with _ | t
  · exact Or.inr (Or.inl ⟨hat, rfl, migrate_of_empty hat hdocs⟩)
  · rw [← hdocs]
    exact Or.inr (Or.inr (hfails (by decide) (by simp [hdocs]) (migrate_of_occupied hat hdocs)))

/-- A table of versions that is there already makes no difference. -/
theorem migrate_withVersions (db : Database) : migrate db.withVersions = migrate db := by
  have hsame : db.withVersions.withVersions = db.withVersions := by
    rw [withVersions_eq, withVersions_eq]
    rfl
  rw [migrate, hsame, migrate]

/-- **Once is as good as twice.** -/
theorem migrate_again (db : Database) : migrate (migrate db).2 = migrate db := by
  obtain ⟨-, hdone⟩ | ⟨hat, -, hdone⟩ | ⟨-, -, e, hdone⟩ := migrate_cases db
  · rw [hdone, hdone]
  · rw [hdone, migrate_of_current (hat.raised _)]
  · rw [hdone, migrate_withVersions, hdone]

end Outcomes

/-! ### Statement by statement -/

/-- **The parts of a database**, also as they are in the middle of a transaction. -/
structure Parts where
  /-- The schema versions on record. -/
  versions : Option (List ℤ)
  /-- The documents. -/
  documents : Option Table
  /-- The indexes of the documents. -/
  indexes : List String
  deriving DecidableEq

/-- The indexes that documents come with. -/
def indexNames : List String := ["idx_documents_created", "idx_documents_owner_created"]

/-- The parts of a database that is not in the middle of anything. -/
def parts (db : Database) : Parts :=
  ⟨db.versions, db.documents, if db.documents.isSome then indexNames else []⟩

/-- What a database is told to do in a migration. -/
inductive Statement where
  /-- Create the table of versions, unless it is there. -/
  | createVersions
  /-- Create the documents table. -/
  | createDocuments
  /-- Create an index of the documents. -/
  | createIndex (name : String)
  /-- Put a version on record. -/
  | recordVersion (v : ℤ)
  /-- Nobody knows what is to be done for this version. -/
  | unknown (v : ℕ)

/-- What a statement does, if it does not fail. -/
def Statement.execute (p : Parts) : Statement → Except StoreError Parts
  | createVersions => .ok { p with versions := some (p.versions.getD []) }
  | createDocuments =>
    match p.documents with
    | some _ => .error (.database "table documents already exists")
    | none => .ok { p with documents := some {} }
  | createIndex name =>
    if name ∈ p.indexes then .error (.database ("index " ++ name ++ " already exists"))
    else if p.documents.isNone then .error (noTable "main.documents")
    else .ok { p with indexes := name :: p.indexes }
  | recordVersion v =>
    match p.versions with
    | none => .error (noTable "schema_migrations")
    | some vs =>
      if v ∈ vs then .error (notUnique "schema_migrations.version")
      else .ok { p with versions := some (v :: vs) }
  | unknown v => .error (.migration ("unknown migration version: " ++ toString v))

/-- **A transaction**: all of the statements, or none of them. -/
def transaction (statements : List Statement) (p : Parts) : Except StoreError Unit × Parts :=
  match statements.foldlM Statement.execute p with
  | .ok p' => (.ok (), p')
  | .error e => (.error e, p)

/-- What is to be done to get to a version from the one before. -/
def statements : ℕ → List Statement
  | 1 => [.createDocuments, .createIndex "idx_documents_owner_created",
      .createIndex "idx_documents_created", .recordVersion 1]
  | v => [.unknown v]

/-- **A migration, statement by statement**: the table of versions is created on its own, and all
the versions that are missing are gone through in one transaction. -/
def script (p : Parts) : Except StoreError Unit × Parts :=
  match Statement.createVersions.execute p with
  | .error e => (.error e, p)
  | .ok p =>
    let v := greatestVersion (p.versions.getD [])
    if v < 0 ∨ 2 ^ 32 ≤ v then
      (.error (.database ("Integer " ++ toString v ++ " out of range at index 0")), p)
    else if (currentVersion : ℤ) < v then
      (.error (.migration ("database schema version " ++ toString v ++
        " is newer than supported version " ++ toString currentVersion)), p)
    else transaction
      ((List.range' (v.toNat + 1) (currentVersion - v.toNat)).flatMap statements) p

theorem createVersions_parts (db : Database) :
    Statement.createVersions.execute db.parts = .ok db.withVersions.parts := by
  rw [withVersions_eq]
  rfl

/-- **The statements that raise a database to version 1** go through if there are no documents,
and otherwise nothing is left of them. -/
theorem transaction_first {vs : List ℤ} (hnew : (1 : ℤ) ∉ vs) (documents : Option Table) :
    transaction (statements 1) (parts ⟨some vs, documents⟩) =
      match applyFirst ⟨some vs, documents⟩ with
      | .ok db => (.ok (), db.parts)
      | .error e => (.error e, parts ⟨some vs, documents⟩) := by
  cases documents with
  | some t => rfl
  | none =>
    -- each statement finds what the one before has made
    simp [transaction, statements, Statement.execute, applyFirst, addVersion, onVersions, parts,
      indexNames, hnew, bind, Except.bind, pure, Except.pure]

theorem script_of_atVersion (h : db.AtVersion v) : script db.parts =
    if v < 0 ∨ 2 ^ 32 ≤ v then
      (.error (.database ("Integer " ++ toString v ++ " out of range at index 0")),
        db.withVersions.parts)
    else if (currentVersion : ℤ) < v then
      (.error (.migration ("database schema version " ++ toString v ++
        " is newer than supported version " ++ toString currentVersion)), db.withVersions.parts)
    else transaction ((List.range' (v.toNat + 1) (currentVersion - v.toNat)).flatMap statements)
      db.withVersions.parts := by
  have hgreatest : greatestVersion (db.withVersions.parts.versions.getD []) = v :=
    atVersion_iff.mp (atVersion_withVersions.mpr h)
  rw [script, createVersions_parts]
  dsimp only
  rw [hgreatest]

/-- **The statements of a migration come to what it is in one piece.** -/
theorem script_parts (db : Database) :
    script db.parts = ((migrate db).1, (migrate db).2.parts) := by
  have hat : db.AtVersion (greatestVersion (db.versions.getD [])) := atVersion_iff.mpr rfl
  generalize greatestVersion (db.versions.getD []) = v at hat
  rw [script_of_atVersion hat]
  by_cases hrange : v < 0 ∨ 2 ^ 32 ≤ v
  · rw [if_pos hrange, migrate_of_unreadable hat hrange]
  by_cases hnew : (currentVersion : ℤ) < v
  · rw [if_neg hrange, if_pos hnew, migrate_of_newer hat hnew (by omega)]
  rw [if_neg hrange, if_neg hnew]
  rw [currentVersion] at hnew
  obtain rfl | rfl : v = 1 ∨ v = 0 := by omega
  · -- no version is missing, and the transaction is empty
    rw [migrate_of_current hat, hat.withVersions_eq_self (by decide)]
    rfl
  · rw [migrate_of_zero hat, withVersions_eq]
    refine (transaction_first (hat.not_mem (by decide)) db.documents).trans ?_
    cases applyFirst ⟨some (db.versions.getD []), db.documents⟩ <;> rfl

/-- **A migration is done all or not at all, and once is as good as twice.** Every database stands
at one version, the greatest on record, and that and the documents settle what comes of it.

It succeeds exactly if the database is current, and then changes nothing, or is without a version
and without documents, and then the documents table, its indexes and version 1 are added together.
A later version that can be read is refused as such; one that cannot be read, and documents where
there is no version, are a failure of the database. When it does not succeed the database is as it
was, but for a table of versions without any that may be new. Another one comes to the same and
changes nothing more. And all this is so of the single statements, of which those in the
transaction are taken back together. -/
theorem migration_all_or_nothing (db : Database) :
    (∃! v, db.AtVersion v) ∧
    ((migrate db).1 = .ok () ↔ db.AtVersion 1 ∨ db.AtVersion 0 ∧ db.documents = none) ∧
    (db.AtVersion 1 → (migrate db).2 = db) ∧
    (db.AtVersion 0 → db.documents = none →
      (migrate db).2 = ⟨some (1 :: db.versions.getD []), some {}⟩) ∧
    (∀ v, db.AtVersion v → 1 < v → v < 2 ^ 32 → ∃ text, (migrate db).1 = .error (.migration text)) ∧
    (∀ v, db.AtVersion v → v < 0 ∨ 2 ^ 32 ≤ v → ∃ text, (migrate db).1 = .error (.database text)) ∧
    (db.AtVersion 0 → db.documents ≠ none → ∃ text, (migrate db).1 = .error (.database text)) ∧
    ((migrate db).1 ≠ .ok () → (migrate db).2 = db ∨
      db.versions = none ∧ (migrate db).2 = { db with versions := some [] }) ∧
    migrate (migrate db).2 = migrate db ∧
    script db.parts = ((migrate db).1, (migrate db).2.parts) := by
  refine ⟨⟨_, atVersion_iff.mpr rfl, fun v hv => (atVersion_iff.mp hv).symm⟩, ⟨fun hok => ?_, ?_⟩,
    fun hat => by rw [migrate_of_current hat],
    fun hat hdocs => by rw [migrate_of_empty hat hdocs],
    fun v hat hnew hv => ⟨_, by rw [migrate_of_newer hat hnew hv]⟩,
    fun v hat hv => ⟨_, by rw [migrate_of_unreadable hat hv]⟩, fun hat hdocs => ?_,
    fun hfailed => ?_, migrate_again db, script_parts db⟩
  · obtain ⟨hat, -⟩ | ⟨hat, hdocs, -⟩ | ⟨-, -, e, hdone⟩ := migrate_cases db
    · exact Or.inl hat
    · exact Or.inr ⟨hat, hdocs⟩
    · rw [hdone] at hok
      cases hok
  · rintro (hat | ⟨hat, hdocs⟩)
    · rw [migrate_of_current hat]
    · rw [migrate_of_empty hat hdocs]
  · obtain ⟨t, ht⟩ := Option.ne_none_iff_exists'.mp hdocs
    exact ⟨_, by rw [migrate_of_occupied hat ht]⟩
  · obtain ⟨-, hdone⟩ | ⟨-, -, hdone⟩ | ⟨-, -, e, hdone⟩ := migrate_cases db
    · exact absurd (by rw [hdone]) hfailed
    · exact absurd (by rw [hdone]) hfailed
    · rw [hdone]
      exact withVersions_cases db

/-- A database with versions on record that are no versions, the greatest of them zero, is raised
to version 1; one that has documents as well is left alone. -/
theorem migration_all_or_nothing_of_odd_versions :
    (migrate ⟨some [0, -7], none⟩).2 = ⟨some [1, 0, -7], some {}⟩ ∧
      (migrate ⟨some [0, -7], some {}⟩).2 = ⟨some [0, -7], some {}⟩ ∧
      ∃ text, (migrate ⟨some [0, -7], some {}⟩).1 = .error (.database text) := by
  have hat (documents : Option Table) : AtVersion ⟨some [0, -7], documents⟩ 0 :=
    atVersion_iff.mpr rfl
  obtain ⟨-, -, -, hraised, -⟩ := migration_all_or_nothing ⟨some [0, -7], none⟩
  obtain ⟨-, -, -, -, -, -, hoccupied, hfailed, -⟩ :=
    migration_all_or_nothing ⟨some [0, -7], some {}⟩
  obtain ⟨text, htext⟩ := hoccupied (hat _) (by decide)
  refine ⟨hraised (hat none) rfl, ?_, text, htext⟩
  obtain hsame | ⟨hnone, -⟩ := hfailed (by simp [htext])
  · exact hsame
  · cases hnone

end Vault.Database
