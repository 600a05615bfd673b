import Recourse.Backoff.Capped
import Recourse.Backoff.Exponential
import Recourse.Retry.Runner

/-!
# Building runners

A runner from settings has an exponential backoff of their policy, which is
checked first.  It can then be capped to a number of attempts, of which there
has to be at least one.
-/

namespace Recourse

namespace Runner

/-- A runner with an exponential backoff. -/
def ofSettings (s : Settings) (now : Instant) : Except Refusal (Runner Exponential) :=
  (Exponential.checked s.policy now).map fun backoff => ⟨backoff, s.observer⟩

/-- A runner from the standard settings with some changes. -/
def withChanges (changes : List Setting) (now : Instant) :
    Except Refusal (Runner Exponential) :=
  ofSettings (Settings.standard.apply changes) now

/-- The policy of a runner. -/
def policy (r : Runner Exponential) : Policy := r.backoff.policy

/-- The same runner, making at most `cap` attempts. -/
def capped {β : Type} (r : Runner β) (cap : UInt32) : Except Refusal (Runner (Capped β)) :=
  if h : 0 < cap then .ok ⟨Capped.start r.backoff cap h, r.observer⟩ else .error .zeroAttempts

end Runner

end Recourse
