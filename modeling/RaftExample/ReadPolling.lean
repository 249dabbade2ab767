import Mathlib.Algebra.Order.Ring.Int

/-!
# Waiting for the barrier

A linearizable read may reach a new leader before its barrier is through.  After
`VerifyLeader` the read then polls the flag, sixteen times and a bit, until the time it may
hold the request is over.  Here the goroutine runs whenever something is ready for it; where
several cases of the `select` are ready at once, any of them may be taken.
-/

namespace RaftExample

namespace PollEnv

end PollEnv

section Ticks

variable {env : PollEnv} {start deadline interval : Int}

end Ticks

end RaftExample
