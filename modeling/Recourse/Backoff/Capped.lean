import Recourse.Backoff.Basic

/-!
# Capped backoff

Any backoff, limited to a number of attempts.  A cap of three allows the first
attempt and two retries.  The failure that reaches the cap is answered with
none without asking the inner backoff, and from then on the cap is blamed.
-/

namespace Recourse

/-- A backoff under a cap on the number of attempts. -/
structure Capped (β : Type) where
  inner : β
  cap : UInt32
  cap_pos : 0 < cap
  /-- The failures of this series, counted up to the largest number of 32
  bits. -/
  failures : UInt32
  /-- The error that blames the cap. -/
  blame : CodedError

namespace Capped

variable {β : Type}

/-- A backoff under a cap, before any failure. -/
def start (inner : β) (cap : UInt32) (cap_pos : 0 < cap) : Capped β :=
  ⟨inner, cap, cap_pos, 0, Builtin.retryAttemptsSpent⟩

/-- Reports the cap with another error. -/
def withBlame (b : Capped β) (blame : CodedError) : Capped β := { b with blame }

/-- One more, but no more than 32 bits can hold. -/
def count (n : UInt32) : UInt32 := if n = UInt32.ofNat (UInt32.size - 1) then n else n + 1

theorem count_toNat (n : UInt32) : (count n).toNat = min (n.toNat + 1) (UInt32.size - 1) := by
  unfold count
  have hsize : UInt32.size = 4294967296 := rfl
  have hlt := n.toNat_lt
  split
  case isTrue h => subst h; rfl
  case isFalse h =>
    have hne : n.toNat ≠ UInt32.size - 1 := fun heq => h (UInt32.toNat_inj.1 (by simpa using heq))
    rw [UInt32.toNat_add]
    simp
    omega

/-- Whether the failures have used up the attempts. -/
def isSpent (b : Capped β) : Bool := b.cap ≤ b.failures

/-- The inner wait, unless this failure uses up the attempts. -/
def next [Backoff β] (b : Capped β) (now : Instant) (draw : Draw) : Option Span × Capped β :=
  let b := { b with failures := count b.failures }
  if b.isSpent then (none, b)
  else
    let (wait, inner) := Backoff.next b.inner now draw
    (wait, { b with inner })

instance [Backoff β] : Backoff (Capped β) where
  next := next
  reset b now := { b with failures := 0, inner := Backoff.reset b.inner now }
  exhausted b := if b.isSpent then b.blame else Backoff.exhausted b.inner

end Capped

end Recourse
