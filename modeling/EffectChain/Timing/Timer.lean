import EffectChain.Device.Ownership
import EffectChain.Timing.Average

/-!
# Timers

A timer measures how long the device takes from `start` to `stop` without ever waiting. It owns
three queries: an interval that tells the clock frequency and whether the clock was interrupted, and
a timestamp at either end. A measurement is in flight from `stop` until its three results are ready
and `poll` takes them; only then does `start` begin another, so measurements never overlap.

Starting and stopping are given as the commands they issue, none if the timer is not in the right
state, and `poll` reads the device without changing it.
-/

namespace EffectChain

/-- What a timer is doing. -/
inductive TimerState
  | idle
  | recording
  | inFlight
  deriving DecidableEq

/-- A timer. -/
structure Timer where
  /-- The interval of the measurement. -/
  interval : Handle .query
  /-- The timestamp at its start. -/
  opening : Handle .query
  /-- The timestamp at its end. -/
  closing : Handle .query
  /-- What the timer is doing. -/
  state : TimerState := .idle
  deriving DecidableEq

namespace Timer

def create : DeviceM Timer := do
  let interval ← Device.createQuery .disjoint
  keeping [interval.ref] do
    let opening ← Device.createQuery .timestamp
    keeping [opening.ref] do
      let closing ← Device.createQuery .timestamp
      return { interval, opening, closing }

def queries (t : Timer) : List (Handle .query) := [t.interval, t.opening, t.closing]

def refs (t : Timer) : List ObjectRef := t.queries.map Handle.ref

/-- Whether a measurement was submitted and not yet taken. -/
def isInFlight (t : Timer) : Bool := t.state = .inFlight

/-- Starts a measurement unless there is one already: whether it did, the timer after, and the
commands to issue. -/
def start (t : Timer) : Bool × Timer × List Command :=
  if t.state = .idle then
    (true, { t with state := .recording }, [.beginQuery t.interval, .endQuery t.opening])
  else (false, t, [])

/-- Ends the measurement that was started: whether there is one, the timer after, and the commands
to issue. -/
def stop (t : Timer) : Bool × Timer × List Command :=
  if t.state = .recording then
    (true, { t with state := .inFlight }, [.endQuery t.closing, .endQuery t.interval])
  else (false, t, [])

/-- The nanoseconds from one clock reading to another, the fraction dropped. -/
def nanoseconds (opening closing frequency : UInt64) : UInt64 :=
  UInt64.ofNat ((closing.toNat - opening.toNat) * 1000000000 / frequency.toNat)

/-- Takes the measurement in flight if its results are ready. The duration is missing if nothing was
taken, if the clock was interrupted or if it has no frequency. -/
def poll (t : Timer) (d : Device) : Option UInt64 × Timer :=
  if t.state = .inFlight then
    match d.queryData? t.interval, d.queryData? t.opening, d.queryData? t.closing with
    | some (.disjoint frequency interrupted), some (.timestamp opening),
        some (.timestamp closing) =>
      let duration? :=
        if interrupted ∨ frequency = 0 then none else some (nanoseconds opening closing frequency)
      (duration?, { t with state := .idle })
    | _, _, _ => (none, t)
  else (none, t)

/-- Polls, and adds a duration to an average. -/
def collect {window : Nat} (t : Timer) (d : Device) (average : MovingAverage window) :
    Timer × MovingAverage window :=
  match t.poll d with
  | (some duration, t) => (t, average.append duration)
  | (none, t) => (t, average)

end Timer

end EffectChain
