/-!
# The shutdown signal

One side raises the signal, any number of others look at it. A signal whose sender is
gone counts as raised.
-/

namespace Vault

/-- A shutdown signal. -/
structure Signal where
  /-- What the sender last said. -/
  raised : Bool := false
  /-- Whether the sender is gone. -/
  senderGone : Bool := false
  deriving DecidableEq, Repr

namespace Signal

/-- Whether those who look at the signal are to stop. -/
def cancelled (s : Signal) : Bool :=
  s.raised || s.senderGone

end Signal

end Vault
