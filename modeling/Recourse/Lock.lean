/-!
# Locks

A `Lock` keeps a value that one writer at a time may change.  A writer that
breaks off while it holds the lock leaves the lock poisoned for good: the value
stays as the writer left it, and everyone who takes the lock from then on is
told so.
-/

namespace Recourse

/-- A value behind a lock. -/
structure Lock (α : Type) where
  value : α
  /-- A writer broke off while it held the lock. -/
  poisoned : Bool

namespace Lock

variable {α : Type}

/-- A lock that nobody has taken yet. -/
def around (value : α) : Lock α := ⟨value, false⟩

/-- Takes the lock.  If it is poisoned, its value comes as an error. -/
def take (l : Lock α) : Except α α := if l.poisoned then .error l.value else .ok l.value

/-- Gives the lock back with a new value. -/
def release (l : Lock α) (value : α) (brokeOff : Bool) : Lock α :=
  ⟨value, l.poisoned || brokeOff⟩

/-- The value of a lock that was taken, poisoned or not. -/
def recover (taken : Except α α) : α :=
  match taken with
  | .ok value => value
  | .error value => value

/-- Nothing is lost by a writer that breaks off. -/
theorem recover_take (l : Lock α) : recover l.take = l.value := by
  unfold take
  split <;> rfl

end Lock

end Recourse
