import Vault.Status

/-!
# The log

The log is a list of records in the order in which they were written. A record has
a level, a message and named fields; every failure reported to a caller is logged
by `Vault.Log.ofStatus`, as an error when it is the vault's own and as a warning
when it is the caller's.
-/

namespace Vault

/-- How grave a record is. -/
inductive Level where
  | info
  | warn
  | error
  deriving DecidableEq, Repr

/-- One record of the log. -/
structure LogRecord where
  /-- How grave it is. -/
  level : Level
  /-- What happened. -/
  message : String
  /-- The details, by name. -/
  fields : List (String × String)
  deriving DecidableEq, Repr

/-- Records in the order in which they were written. -/
abbrev Log := List LogRecord

namespace Log

/-- The record of a failure reported to a caller. -/
def ofStatus (s : Status) : LogRecord where
  level := if s.kind.isClientError then .warn else .error
  message := "request failed"
  fields := [("kind", s.kind.name), ("message", s.message)]

end Log

end Vault
