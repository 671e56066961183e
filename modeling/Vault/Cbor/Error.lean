import Vault.Text.Quoted

/-!
# Why bytes are not the expected CBOR

Four things can be wrong with an encoded item: the bytes run out, the bytes are not
CBOR at a certain offset, they are CBOR of a shape nobody asked for, or they nest
too deeply. The wording of each is fixed here.
-/

namespace Vault.Cbor

/-- A failure to read an item. -/
inductive Error where
  /-- The bytes run out. -/
  | inputEnds
  /-- The bytes at this offset do not begin an item that may stand there. -/
  | malformed (offset : Nat)
  /-- The item is not what was asked for. -/
  | semantic (text : String)
  /-- Items nest too deeply. -/
  | tooDeep
  deriving DecidableEq, Repr

namespace Error

/-- The failure in words. -/
def message : Error → String
  | inputEnds =>
    "Io(Error \x7b kind: UnexpectedEof, message: \"failed to fill whole buffer\" \x7d)"
  | malformed offset => "Syntax(" ++ toString offset ++ ")"
  | semantic text => "Semantic(None, " ++ Text.quoted text ++ ")"
  | tooDeep => "RecursionLimitExceeded"

/-- An item of one type where another was expected. -/
def invalidType (found expected : String) : Error :=
  semantic ("invalid type: " ++ found ++ ", expected " ++ expected)

/-- An integer out of the range of what was expected. -/
def invalidInteger (n : Nat) (expected : String) : Error :=
  semantic ("invalid value: integer `" ++ toString n ++ "`, expected " ++ expected)

/-- Names in backquotes, as a list of alternatives. -/
def alternatives (names : List String) : String :=
  "one of " ++ ", ".intercalate (names.map fun n => "`" ++ n ++ "`")

/-- A variant that is not among the known ones. -/
def unknownVariant (name : String) (known : List String) : Error :=
  semantic ("unknown variant `" ++ name ++ "`, expected " ++ alternatives known)

/-- The text for a field that occurs twice. -/
def duplicateFieldText (name : String) : String :=
  "duplicate field `" ++ name ++ "`"

/-- The text for a field that does not occur. -/
def missingFieldText (name : String) : String :=
  "missing field `" ++ name ++ "`"

end Error

/-- How deeply arrays, maps, variants and tags may nest. -/
def maxDepth : Nat := 256

end Vault.Cbor
