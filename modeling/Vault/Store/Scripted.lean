import Vault.Store.Basic

/-!
# A store that plays a part

For rehearsals: every operation has a list of outcomes, one of which is used up by each
call, and succeeds once the list is empty. Nothing is stored; what a success returns is
fixed in advance, and a deletion may take its time or never end.
-/

namespace Vault

/-- A store that plays a part. -/
structure Scripted where
  /-- The outcomes of coming insertions; `none` is a success. -/
  inserts : List (Option StoreError) := []
  /-- The outcomes of coming fetches. -/
  gets : List (Option StoreError) := []
  /-- The outcomes of coming listings. -/
  lists : List (Option StoreError) := []
  /-- The outcomes of coming deletions. -/
  deletes : List (Option StoreError) := []
  /-- What is listed; their number is what a deletion reports. -/
  docs : List Document := []
  /-- How many milliseconds a deletion takes. -/
  delay : Nat := 0
  /-- Whether a deletion never ends. -/
  hang : Bool := false

namespace Scripted

/-- The next outcome, and the ones after it. -/
def take : List (Option StoreError) → Option StoreError × List (Option StoreError)
  | [] => (none, [])
  | o :: rest => (o, rest)

/-- A success with this value, unless a failure is due. -/
def outcome {α : Type} (o : Option StoreError) (a : α) : Except StoreError α :=
  match o with
  | some e => .error e
  | none => .ok a

instance : Store Scripted where
  insert d _ s e :=
    let (o, rest) := take s.inserts
    (outcome o ⟨d.name, d.owner, d.content, .epoch⟩, { s with inserts := rest }, e)
  get id s :=
    let (o, rest) := take s.gets
    (outcome o ⟨id, "scripted", "scripted", .epoch⟩, { s with gets := rest })
  list _ s :=
    let (o, rest) := take s.lists
    (outcome o s.docs, { s with lists := rest })
  deleteBefore _ s :=
    let (o, rest) := take s.deletes
    (outcome o s.docs.length, { s with deletes := rest })

end Scripted

end Vault
