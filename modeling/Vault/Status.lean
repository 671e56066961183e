/-!
# Statuses

Whatever goes wrong for a caller is reported as a **status**: one of four kinds and
a message. A status is what crosses the wire; the causes behind it are the error
types of the modules that raise them.
-/

namespace Vault

/-- The kinds of failure a caller can be told about. -/
inductive ErrorKind where
  /-- The caller sent something unusable. -/
  | invalidArgument
  /-- There is no such document. -/
  | notFound
  /-- The vault failed. -/
  | internal
  /-- The caller asked for something the vault does not offer. -/
  | unimplemented
  deriving DecidableEq, Repr

namespace ErrorKind

/-- All kinds, in the order in which they are listed to a caller. -/
def all : List ErrorKind := [invalidArgument, notFound, internal, unimplemented]

/-- The name of a kind on the wire and in the log. -/
def name : ErrorKind → String
  | invalidArgument => "invalid_argument"
  | notFound => "not_found"
  | internal => "internal"
  | unimplemented => "unimplemented"

/-- Whether the caller is to blame. -/
def isClientError : ErrorKind → Bool
  | internal => false
  | _ => true

end ErrorKind

/-- A failure as a caller sees it. -/
structure Status where
  /-- Its kind. -/
  kind : ErrorKind
  /-- What happened. -/
  message : String
  deriving DecidableEq, Repr

namespace Status

/-- A status that blames the caller's input. -/
def invalidArgument (message : String) : Status := ⟨.invalidArgument, message⟩

/-- A status for a missing document. -/
def notFound (message : String) : Status := ⟨.notFound, message⟩

/-- A status for a failure of the vault. -/
def internal (message : String) : Status := ⟨.internal, message⟩

/-- A status for an operation the vault does not offer. -/
def unimplemented (message : String) : Status := ⟨.unimplemented, message⟩

/-- Kind and message. -/
def text (s : Status) : String :=
  s.kind.name ++ ": " ++ s.message

end Status

end Vault
