/-!
What a player asks for in one tick, as a set of bits.
-/

namespace CoopShooter

/-- A set of actions. Six bits have a meaning; a set read from the wire may carry the other two. -/
structure InputFlags where
  bits : UInt8
  deriving DecidableEq, Repr

namespace InputFlags

def empty : InputFlags := ⟨0⟩
def up : InputFlags := ⟨0x01⟩
def down : InputFlags := ⟨0x02⟩
def left : InputFlags := ⟨0x04⟩
def right : InputFlags := ⟨0x08⟩
/-- Fire a normal shot. -/
def fire : InputFlags := ⟨0x10⟩
/-- Fire a charged shot. -/
def fireCharged : InputFlags := ⟨0x20⟩
/-- All bits that have a meaning. -/
def all : InputFlags := ⟨0x3f⟩

/-- The meaningful bits of a byte. -/
def ofBits (bits : UInt8) : InputFlags :=
  ⟨bits &&& all.bits⟩

/-- Every action of `b` is one of `a`. -/
def contains (a b : InputFlags) : Bool :=
  a.bits &&& b.bits == b.bits

/-- The actions of both sets. -/
def union (a b : InputFlags) : InputFlags :=
  ⟨a.bits ||| b.bits⟩

instance : Union InputFlags := ⟨union⟩

/-- No bit is set. -/
def isEmpty (a : InputFlags) : Bool :=
  a.bits == 0

/-- The set itself where the condition holds, and nothing elsewhere. -/
def onlyIf (a : InputFlags) (condition : Bool) : InputFlags :=
  if condition then a else empty

end InputFlags

end CoopShooter
