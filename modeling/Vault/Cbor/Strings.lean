import Vault.Cbor.Head
import Vault.Text.Utf8

/-!
# Byte strings and texts

After the head of a string come its bytes, or, when the length is unknown, pieces of
known length up to a break. Pieces of unknown length may nest; every piece of a text
is a text of its own.
-/

namespace Vault.Cbor

/-- The bytes of a string of known length. -/
def definiteBytes (_start len : Nat) (c : Cursor) : Except Error (Bytes × Cursor) :=
  c.take len

/-- The text of known length whose head begins at `start`. When the bytes run out, a text
that is already seen to be broken is reported as such. -/
def definiteText (start len : Nat) (c : Cursor) : Except Error (String × Cursor) :=
  match c.take? len with
  | some (b, after) =>
    match Utf8.decode? b with
    | some s => .ok (s, after)
    | none => .error (.malformed start)
  | none =>
    if Utf8.brokenBeforeEnd (c.left / (Utf8.window - 3) + 1) [] c.input c.pos then
      .error (.malformed start)
    else .error .inputEnds

/-- The pieces of a string of unknown length, each taking the state a step further.
`length?` recognises the heads of pieces; `nested` counts the breaks still to come. Every
round takes a byte, so the bytes left bound the rounds. -/
def pieces {σ : Type} (length? : Head → Option (Option Nat))
    (piece : σ → Nat → Nat → Cursor → Except Error (σ × Cursor)) :
    Nat → Nat → σ → Cursor → Except Error (σ × Cursor)
  | 0, _, _, _ => .error .inputEnds
  | fuel + 1, nested, s, c =>
    match Head.read c with
    | .error e => .error e
    | .ok (h, after) =>
      if h = .stop then
        if nested = 1 then .ok (s, after)
        else pieces length? piece fuel (nested - 1) s after
      else
        match length? h with
        | none => .error (.malformed c.pos)
        | some none => pieces length? piece fuel (nested + 1) s after
        | some (some len) =>
          match piece s c.pos len after with
          | .error e => .error e
          | .ok (s, after) => pieces length? piece fuel nested s after

/-- Read one more piece in front of those read before. -/
def pushPiece {α : Type} (piece : Nat → Nat → Cursor → Except Error (α × Cursor))
    (acc : List α) (start len : Nat) (c : Cursor) : Except Error (List α × Cursor) :=
  match piece start len c with
  | .error e => .error e
  | .ok (a, after) => .ok (a :: acc, after)

/-- The length in the head of a byte string. -/
def bytesLength? : Head → Option (Option Nat)
  | .bytes len => some len
  | _ => none

/-- The length in the head of a text. -/
def textLength? : Head → Option (Option Nat)
  | .text len => some len
  | _ => none

/-- The byte string after a head of this length. -/
def bytesAfter (len : Option Nat) (c : Cursor) : Except Error (Bytes × Cursor) :=
  match len with
  | some n => definiteBytes c.pos n c
  | none =>
    match pieces bytesLength? (pushPiece definiteBytes) c.left 1 [] c with
    | .error e => .error e
    | .ok (acc, after) => .ok (acc.reverse.foldl (· ++ ·) ByteArray.empty, after)

/-- The text after a head of this length, where the head was looked at before. -/
def textAfter (len : Option Nat) (c : Cursor) : Except Error (String × Cursor) :=
  match len with
  | some n => definiteText (Head.nominalStart len c.pos) n c
  | none =>
    match pieces textLength? (pushPiece definiteText) c.left 1 [] c with
    | .error e => .error e
    | .ok (acc, after) => .ok (String.join acc.reverse, after)

/-! ### Writing strings -/

/-- A byte string. -/
def writeBytes (b : Bytes) : Bytes :=
  Head.write 2 b.size ++ b

/-- A text. -/
def writeText (s : String) : Bytes :=
  let b := Utf8.encode s
  Head.write 3 b.size ++ b

end Vault.Cbor
