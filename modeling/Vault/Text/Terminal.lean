import Vault.Text.Utf8

/-!
# Texts for a terminal

A text that is shown on a terminal may hold more than what is to be read: a byte that
rings the bell, or a **sequence** that begins with an escape and sets a colour or a
title. `Vault.Text.unstyled` is what is left of a text without either.

A sequence is an escape and a last byte, perhaps with bytes between; or it is a control
sequence, which the byte `[` opens and a letter or sign closes; or it is a string of
bytes for the terminal itself, which goes on to the next escape. White space in the
middle of one of the former stays, and ends it.
-/

namespace Vault.Text

/-- Where in a text a reader stands. -/
inductive Position where
  /-- Outside of any sequence. -/
  | outside
  /-- Behind an escape. -/
  | escape
  /-- Behind an escape and some bytes that do not end it. -/
  | intermediate
  /-- Inside a control sequence. -/
  | control
  /-- Inside a string for the terminal, which the bell may end. -/
  | command
  /-- Inside a string for the terminal that nothing but an escape ends. -/
  | string
  deriving DecidableEq, Repr

namespace Position

/-- Whether a byte is white space. -/
def isSpace (b : UInt8) : Bool :=
  b == 0x09 || b == 0x0A || b == 0x0C || b == 0x0D || b == 0x20

/-- The position behind the byte that follows an escape. -/
def afterEscape (b : UInt8) : Position :=
  if b < 0x30 then intermediate
  else if b = 0x5B then control
  else if b = 0x5D then command
  else if b = 0x50 ∨ b = 0x58 ∨ b = 0x5E ∨ b = 0x5F then string
  else outside

/-- The position behind a byte inside a sequence, where a control changes nothing and
`next` says what any other plain byte does. White space that is a control is outside
again. -/
def inside (p : Position) (b : UInt8) (next : Position) : Position × Bool :=
  if b < 0x20 then (if isSpace b then (outside, true) else (p, false))
  else if b < 0x7F then (next, false)
  else (p, false)

/-- The position behind a byte, and whether the byte is to be read. A byte in the middle of
a scalar value always is. -/
def step (p : Position) (b : UInt8) : Position × Bool :=
  if 0x80 ≤ b ∧ b < 0xC0 then (outside, true)
  else if b = 0x1B then (escape, false)
  else if b = 0x18 ∨ b = 0x1A then (outside, false)
  else
    match p with
    | outside => (outside, if b < 0x20 then isSpace b else b != 0x7F)
    | escape => inside p b (afterEscape b)
    | intermediate => inside p b (if b < 0x30 then p else outside)
    | control => inside p b (if b < 0x40 then p else outside)
    | command => (if b = 0x07 then outside else p, false)
    | string => (p, false)

/-- Read one more byte: the position behind it, and what there is to be read so far. -/
def read (r : Position × Bytes) (b : UInt8) : Position × Bytes :=
  match r.1.step b with
  | (p, true) => (p, r.2.push b)
  | (p, false) => (p, r.2)

end Position

/-- A text without its controls and its sequences for a terminal. -/
def unstyled (s : String) : String :=
  Utf8.lossy ((Utf8.encode s).foldl Position.read (.outside, ByteArray.empty)).2

end Vault.Text
