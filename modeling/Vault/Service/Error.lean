import Vault.Session.Error
import Vault.Store.Error
import Vault.Time

/-!
# What can go wrong in the service

The service wraps the failures of its parts and adds its own: a connection that opens
with the wrong frame, an address that names no host, settings it cannot run with.
-/

namespace Vault

/-- A failure of the service or of a client of it. -/
inductive ServiceError where
  /-- A socket failed. -/
  | io (text : String)
  /-- The store failed. -/
  | store (e : StoreError)
  /-- A session failed. -/
  | session (e : SessionError)
  /-- The link failed before a session began. -/
  | link (e : LinkError)
  /-- The connection did not open with a call. -/
  | protocol (text : String)
  /-- The address names no host. -/
  | resolve (text : String)
  /-- The settings make no sense. -/
  | config (text : String)
  deriving DecidableEq, Repr

namespace ServiceError

/-- The failure in words. -/
def message : ServiceError → String
  | io text => "I/O error: " ++ text
  | store e => "store error: " ++ e.message
  | session e => "session error: " ++ e.message
  | link e => "transport error: " ++ e.message
  | protocol text => "protocol violation: " ++ text
  | resolve text => "cannot resolve address: " ++ text
  | config text => "invalid configuration: " ++ text

end ServiceError

/-- A failure to hear from the retention sweeper. -/
inductive RetentionError where
  /-- It did not stop in time. -/
  | shutdownTimeout (d : Duration)
  /-- It is gone without a report. -/
  | lost
  deriving DecidableEq, Repr

namespace RetentionError

/-- The failure in words. -/
def message : RetentionError → String
  | shutdownTimeout d => "retention sweeper did not stop within " ++ d.text
  | lost => "retention sweeper exited without reporting"

end RetentionError

end Vault
