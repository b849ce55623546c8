/-!
Why bytes are refused.
-/

namespace CoopShooter

/-- The reasons for which a message cannot be read or a listing cannot be written. -/
inductive WireError where
  | empty
  | unknownOpcode (found : UInt8)
  | unexpectedOpcode (expected found : UInt8)
  | sizeMismatch (expected actual : Nat)
  | countMismatch (announced actual : Nat)
  | endOfBytes
  deriving DecidableEq, Repr

/-- The wording of a refusal. -/
def WireError.message : WireError → String
  | .empty => "empty message"
  | .unknownOpcode found => s!"unknown opcode {found}"
  | .unexpectedOpcode expected found => s!"expected opcode {expected}, found {found}"
  | .sizeMismatch expected actual => s!"expected {expected} bytes, got {actual}"
  | .countMismatch announced actual => s!"header announces {announced} records, {actual} present"
  | .endOfBytes => "i/o error: failed to fill whole buffer"

end CoopShooter
