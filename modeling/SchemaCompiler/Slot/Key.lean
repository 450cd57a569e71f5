/-!
# Slot keys

Compiled code keeps whatever it needs at run time in numbered slots. A key carries the number of its
slot, which identifies it, and the base of the name under which source text mentions it. The numbers
are not bounded here: they stand for those of a counter of 64 bits, which no process uses up.
-/

namespace SchemaCompiler

/-- The key of a slot. -/
structure SlotKey where
  /-- The number of the slot. -/
  id : Nat
  /-- What the slot is for, as the first part of its name. -/
  base : String
  deriving DecidableEq, Inhabited

/-- The name of a slot: its base, followed by its number. -/
def SlotKey.name (key : SlotKey) : String :=
  key.base ++ Nat.repr key.id

end SchemaCompiler
