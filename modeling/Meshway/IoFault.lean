set_option autoImplicit false

/-!
# Failures of connections (SPEC §7)

The ways in which reading, writing, binding and connecting fail, and their
wordings.
-/

namespace Meshway

/-- Why a connection failed. -/
inductive IoFault where
  /-- the input ended while more was needed -/
  | earlyEnd
  /-- the other side takes no more octets -/
  | brokenPipe
  | refused
  | hostUnreachable
  | timedOut
  | reset
  | addressInUse
  | networkUnreachable
  | messageTooLong
  deriving DecidableEq, Repr, Inhabited

/-- The wording of a failure. -/
def IoFault.message : IoFault → String
  | .earlyEnd => "early eof"
  | .brokenPipe => "broken pipe"
  | .refused => "connection refused"
  | .hostUnreachable => "host unreachable"
  | .timedOut => "timed out"
  | .reset => "connection reset"
  | .addressInUse => "Address already in use (os error 98)"
  | .networkUnreachable => "Network is unreachable (os error 101)"
  | .messageTooLong => "Message too long (os error 90)"

end Meshway
