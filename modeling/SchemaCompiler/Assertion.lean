/-!
# Assertions

A predicate becomes an assertion by a fixed message: a value that satisfies it is handed back, and
any other value fails with the message.
-/

namespace SchemaCompiler

universe u

/-- The failure of an assertion. -/
structure AssertionError where
  /-- The message of the assertion. -/
  message : String
  deriving DecidableEq

/-- Assert a predicate of a value, with a message for the failure. -/
def assertion {α : Type u} (predicate : α → Bool) (message : String) (value : α) :
    Except AssertionError α :=
  if predicate value then .ok value else .error ⟨message⟩

theorem assertion_of_holds {α : Type u} {predicate : α → Bool} {value : α}
    (h : predicate value = true) (message : String) :
    assertion predicate message value = .ok value := by
  simp [assertion, h]

theorem assertion_of_not_holds {α : Type u} {predicate : α → Bool} {value : α}
    (h : predicate value = false) (message : String) :
    assertion predicate message value = .error ⟨message⟩ := by
  simp [assertion, h]

end SchemaCompiler
