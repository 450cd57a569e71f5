import SchemaCompiler.Slot.Key

/-!
# The supply of slots

Slots are numbered in the order in which they are requested, whoever requests them, so no two keys
have one number. Variants are numbered in the same way, to tell copies of one variant from variants
that merely look alike.
-/

namespace SchemaCompiler

/-- The numbers that are free. -/
structure Supply where
  /-- The number of the next slot. -/
  nextSlot : Nat
  /-- The number of the next variant. -/
  nextVariant : Nat
  deriving DecidableEq

namespace Supply

/-- The supply of which nothing was taken. -/
def initial : Supply := ⟨0, 0⟩

/-- The next key, with a name after the given base. -/
def slot (supply : Supply) (base : String) : SlotKey :=
  ⟨supply.nextSlot, base⟩

/-- The supply after one slot was taken. -/
def afterSlot (supply : Supply) : Supply :=
  { supply with nextSlot := supply.nextSlot + 1 }

/-- The supply after one variant was taken. -/
def afterVariant (supply : Supply) : Supply :=
  { supply with nextVariant := supply.nextVariant + 1 }

/-- Take a slot. -/
def takeSlot (base : String) : StateM Supply SlotKey :=
  fun supply => (supply.slot base, supply.afterSlot)

/-- Take a number for a variant. -/
def takeVariant : StateM Supply Nat :=
  fun supply => (supply.nextVariant, supply.afterVariant)

end Supply

end SchemaCompiler
