import RpcPolicy.Call.Process
/-! Calls run together on a clock that stands still while any of them can go on. -/

namespace RpcPolicy.Schedule

variable {α : Type}

/-- Looks at work for the first time, in order. -/
def startAll : List (Future α) → World → List (Process α) × World
  | [], w => ([], w)
  | f :: rest, w =>
    let (p, w) := f w
    let (ps, w) := startAll rest w
    (p :: ps, w)

/-- Looks at processes again, in order. -/
def pollAll : List (Process α) → World → List (Process α) × World
  | [], w => ([], w)
  | p :: rest, w =>
    let (p, w) := p.poll w
    let (ps, w) := pollAll rest w
    (p :: ps, w)

/-- Whether a process can go on. -/
def isReady (p : Process α) (w : World) : Bool :=
  p.wait?.any (·.isOver w)

/-- A signal that will be given at an instant. -/
structure Alarm where
  time : Instant
  token : Token
deriving DecidableEq

/-- The earliest of some instants. -/
def earliest? : List Instant → Option Instant
  | [] => none
  | t :: rest =>
    match earliest? rest with
    | none => some t
    | some u => some (if u.nanos < t.nanos then u else t)

/-- Whether the clock may jump to an instant: one without a reach may jump to any. -/
def mayJump (reach : Option Duration) (w : World) (t : Instant) : Bool :=
  reach.all fun length => (t.since w.clock).nanos ≤ length.nanos

/-- The instant to which the clock goes when no process can go on: that of a timer or of a signal
that was not given yet, if it is within reach. -/
def nextInstant? (reach : Option Duration) (ps : List (Process α)) (alarms : List Alarm)
    (w : World) : Option Instant :=
  let pending := alarms.filter fun a => !w.isCanceled a.token
  (earliest? (ps.flatMap (fun p => (p.wait?.map Wait.timers).getD []) ++
    pending.map Alarm.time)).filter (mayJump reach w)

/-- Moves the clock on to an instant and gives the signals that are due. -/
def advanceTo (t : Instant) (alarms : List Alarm) (w : World) : World :=
  let w := { w with clock := w.clock.later t }
  (alarms.filter fun a => a.time.reached w.clock).foldl (fun w a => w.cancel a.token) w

/-- Goes on until every process has finished or none can go on any more, for at most the given
number of rounds. -/
def settle (reach : Option Duration) (alarms : List Alarm) :
    Nat → List (Process α) → World → List (Process α) × World
  | 0, ps, w => (ps, w)
  | rounds + 1, ps, w =>
    if ps.any (isReady · w) then
      let (ps, w) := pollAll ps w
      settle reach alarms rounds ps w
    else if ps.all fun p => p.wait?.isNone then (ps, w)
    else
      match nextInstant? reach ps alarms w with
      | none => (ps, w)
      | some t => settle reach alarms rounds ps (advanceTo t alarms w)

/-- Runs work together and gives what each part ended in, if it ended. -/
def run (reach : Option Duration) (alarms : List Alarm) (work : List (Future α)) (w : World) :
    List (Option α) × World :=
  let (ps, w) := startAll work w
  let (ps, w) := settle reach alarms w.patience ps w
  (ps.map Process.result?, w)

end RpcPolicy.Schedule
