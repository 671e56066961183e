import Vault.Cbor.Head

/-!
# Series of items

Arrays and maps hold a series: as many entries as the head announces, or entries up
to a break. One function reads both, given how to read one entry; it hands the entry
the state built so far, so that a list and the fields of a record are read alike.
-/

namespace Vault.Cbor

/-- `n` entries, each taking the state and the cursor a step further. -/
def entries {σ : Type} (entry : σ → Cursor → Except Error (σ × Cursor)) :
    Nat → σ → Cursor → Except Error (σ × Cursor)
  | 0, s, c => .ok (s, c)
  | n + 1, s, c =>
    match entry s c with
    | .error e => .error e
    | .ok (s, c) => entries entry n s c

/-- Entries up to a break. The head of an entry is looked at first, and handed to the
entry with the cursor after it. Every entry takes a byte, so the bytes left bound the
rounds. -/
def entriesToStop {σ : Type} (entry : σ → Head → Cursor → Cursor → Except Error (σ × Cursor)) :
    Nat → σ → Cursor → Except Error (σ × Cursor)
  | 0, _, _ => .error .inputEnds
  | fuel + 1, s, c =>
    match Head.read c with
    | .error e => .error e
    | .ok (h, after) =>
      if h = .stop then .ok (s, after)
      else
        match entry s h c after with
        | .error e => .error e
        | .ok (s, c) => entriesToStop entry fuel s c

/-- The items of a series, read one by one. -/
def series {α : Type} (item : Cursor → Except Error (α × Cursor)) (len : Option Nat)
    (c : Cursor) : Except Error (List α × Cursor) :=
  let push (acc : List α) (c : Cursor) : Except Error (List α × Cursor) :=
    match item c with
    | .error e => .error e
    | .ok (a, c) => .ok (a :: acc, c)
  let result :=
    match len with
    | some n => entries push n [] c
    | none => entriesToStop (fun acc _ c _ => push acc c) c.left [] c
  match result with
  | .error e => .error e
  | .ok (acc, c) => .ok (acc.reverse, c)

end Vault.Cbor
