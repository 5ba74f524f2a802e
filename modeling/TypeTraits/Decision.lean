/-!
# `TypeTraits.Decision`: logical connectives that stop early

A conjunction runs its operands from the left until one is false; a disjunction
until one is true. What comes out is that operand, its position and its whole
value, or the last one where none decided: a `Decision`. Without operands there
is none to show and the decision is `vacuous`.

Operands are suspended computations in any monad, so that an operand which is
not reached has no effect: it does not run, does not fail and leaves no trace.
The combinators over operands that may fail are the same ones, in a monad with
failure.
-/

set_option autoImplicit false

namespace TypeTraits

/-- Values that count as true or false. -/
class Truth (α : Type) where
  truth : α → Bool

export Truth (truth)

instance : Truth Bool := ⟨id⟩

/-- The outcome of a connective. -/
inductive Decision (α : Type) where
  /-- The operand at the index decided, or was the last one. -/
  | operand (index : Nat) (value : α)
  /-- There were no operands. -/
  | vacuous (value : Bool)
deriving DecidableEq, Repr

namespace Decision

variable {α : Type}

/-- The position of the operand that decided. -/
def index? : Decision α → Option Nat
  | operand i _ => some i
  | vacuous _ => none

/-- The value of the operand that decided. -/
def operand? : Decision α → Option α
  | operand _ v => some v
  | vacuous _ => none

/-- The same decision with another value. -/
def map {β : Type} (f : α → β) : Decision α → Decision β
  | operand i v => operand i (f v)
  | vacuous b => vacuous b

/-- A decision is as true as the operand that decided. -/
instance [Truth α] : Truth (Decision α) :=
  ⟨fun
    | operand _ v => truth v
    | vacuous b => b⟩

/-- Runs operands until one has the decisive truth. `index` is the position of the
first of them, and `sofar` the outcome if there are none. -/
def decideFrom {m : Type → Type} [Monad m] [Truth α] (decisive : Bool) (index : Nat)
    (sofar : Decision α) : List (Unit → m α) → m (Decision α)
  | [] => pure sofar
  | run :: rest => do
    let v ← run ()
    if truth v == decisive then pure (operand index v)
    else decideFrom decisive (index + 1) (operand index v) rest

/-- The first false operand, else the last one; true without operands. -/
def conjunction {m : Type → Type} [Monad m] [Truth α] (operands : List (Unit → m α)) :
    m (Decision α) :=
  decideFrom false 0 (vacuous true) operands

/-- The first true operand, else the last one; false without operands. -/
def disjunction {m : Type → Type} [Monad m] [Truth α] (operands : List (Unit → m α)) :
    m (Decision α) :=
  decideFrom true 0 (vacuous false) operands

end Decision

/-- The opposite truth. -/
def negation {α : Type} [Truth α] (operand : α) : Bool := !truth operand

end TypeTraits
