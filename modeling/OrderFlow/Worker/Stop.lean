import OrderFlow.Call

/-! # Stopping workers

    A worker is asked to stop at a moment on the stopwatch.  The request
    comes to it while time passes: it cuts a sleep short, and a wait or a
    processor's call that goes on beyond the moment is finished first.  Work
    that takes no time is never interrupted. -/

namespace OrderFlow

/-- A request to stop. -/
structure StopRequest where
  /-- When the worker was started, on the stopwatch. -/
  started : Nat
  /-- When it is asked to stop, on the stopwatch. -/
  moment : Nat
  deriving DecidableEq

namespace StopRequest

/-- Has the request come by the moment `elapsed`? -/
def hasCome (r : StopRequest) (elapsed : Nat) : Bool :=
  r.started < elapsed ∧ r.moment ≤ elapsed

/-- Has the request come? -/
def check (r : StopRequest) : Call Bool :=
  .read fun w => r.hasCome w.clock.elapsed

/-- Sleeps for `ms` milliseconds, but not beyond the request; answers whether
    the request has come. -/
def sleep (r : StopRequest) (ms : Nat) : Call Bool := fun w =>
  if r.hasCome w.clock.elapsed then some (.ok true, w)
  else if r.moment ≤ w.clock.elapsed + ms then
    some (.ok true, { w with clock := w.clock.advanceTo r.moment })
  else
    some (.ok false, w.advance ms)

end StopRequest

end OrderFlow
