import Recourse.Instant

/-!
# Cancellation tokens

A token is fired once and stays fired.  It may be fired by whoever holds it,
and it may have a time at which a timer fires it.
-/

namespace Recourse

/-- A cancellation token. -/
structure Token where
  fired : Bool
  /-- When a timer fires the token. -/
  due : Option Instant
  deriving DecidableEq

namespace Token

/-- A token that nothing will fire. -/
def idle : Token := ⟨false, none⟩

/-- Fires the token. -/
def fire (t : Token) : Token := { t with fired := true }

end Token

end Recourse
