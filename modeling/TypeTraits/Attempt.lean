import TypeTraits.Descriptor.Formation

/-!
# `TypeTraits.Attempt`: what to do when a type cannot be formed

An attempt is a computation that may meet an ill-formed type. Whoever makes
one decides what a refusal stands for: another value (`orElse`), the type one
started from (`orIdentity`), or a plain `false` (`holds`). The refusal itself
goes no further.
-/

set_option autoImplicit false

namespace TypeTraits

/-- A computation that may meet a type that cannot be formed. -/
abbrev Attempt (α : Type) := Except IllFormed α

namespace Attempt

variable {α : Type}

/-- The value, or nothing after a refusal. -/
def resolve (a : Attempt α) : Option α := a.toOption

/-- Whether there is a value. -/
def isViable (a : Attempt α) : Bool := a.resolve.isSome

/-- The value, or another one after a refusal. -/
def orElse (a : Attempt α) (fallback : Unit → α) : α :=
  match a.resolve with
  | some x => x
  | none => fallback ()

/-- The type, or the unchanged input after a refusal. -/
def orIdentity (a : Attempt Descriptor) (input : Descriptor) : Descriptor :=
  a.orElse fun _ => input

/-- The answer to a question, `false` after a refusal. -/
def holds (a : Attempt Bool) : Bool := a.orElse fun _ => false

/-- Where there is a value, no other one is looked for. -/
@[simp] theorem orElse_ok (x : α) (fallback : Unit → α) :
    orElse (.ok x) fallback = x := rfl

end Attempt

end TypeTraits
