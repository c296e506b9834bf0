import RpcPolicy.Call.World
/-! Calls in progress: work that runs until it has to wait, and goes on when the wait is over. -/

namespace RpcPolicy

/-- What a call in progress waits for: one of some signals, or one of some instants. -/
structure Wait where
  tokens : List Token
  timers : List Instant
deriving DecidableEq

namespace Wait

/-- Nothing at all: the wait has no end. -/
def forever : Wait := ⟨[], []⟩

/-- Either of two waits. -/
def or (a b : Wait) : Wait := ⟨a.tokens ++ b.tokens, a.timers ++ b.timers⟩

/-- Whether the wait is over. -/
def isOver (on : Wait) (w : World) : Bool :=
  on.tokens.any w.isCanceled || on.timers.any (·.reached w.clock)

@[simp] theorem isOver_or (a b : Wait) (w : World) :
    (a.or b).isOver w = (a.isOver w || b.isOver w) := by
  simp only [isOver, or, List.any_append]
  ac_rfl

end Wait

/-- A call in progress: finished, waiting with the work that follows, or stuck for good. -/
inductive Process (α : Type) where
  | done (a : α)
  | waiting (on : Wait) (resume : World → Process α × World)
  | stuck

/-- Work that nobody has looked at yet; looking at it runs it up to its first wait. -/
abbrev Future (α : Type) := World → Process α × World

namespace Process

variable {α β : Type}

/-- Proves a property of every process from those it may go on as. -/
theorem induct {motive : Process α → Prop} (done : ∀ a, motive (.done a))
    (waiting : ∀ on resume, (∀ w, motive (resume w).1) → motive (.waiting on resume))
    (stuck : motive .stuck) (p : Process α) : motive p :=
  Process.rec (motive_1 := motive) (motive_2 := fun q => motive q.1) done
    (fun on resume ih => waiting on resume ih) stuck (fun _ _ h => h) p

mutual

/-- Goes on with further work when a process has finished. -/
def bind (p : Process α) (k : α → Future β) : Future β :=
  match p with
  | .done a => k a
  | .waiting on resume => fun w => (.waiting on fun w => bindPair (resume w) k, w)
  | .stuck => fun w => (.stuck, w)
termination_by structural p

def bindPair (p : Process α × World) (k : α → Future β) : Process β × World :=
  match p with
  | (q, w) => bind q k w
termination_by structural p

end

theorem bindPair_eq (p : Process α × World) (k : α → Future β) :
    bindPair p k = p.1.bind k p.2 := by
  cases p
  rw [bindPair]

@[simp] theorem bind_done (a : α) (k : α → Future β) : (Process.done a).bind k = k a := by
  rw [bind]

@[simp] theorem bind_waiting (on : Wait) (resume : World → Process α × World)
    (k : α → Future β) (w : World) :
    (Process.waiting on resume).bind k w =
      (.waiting on fun w => (resume w).1.bind k (resume w).2, w) := by
  rw [bind]
  simp only [bindPair_eq]

@[simp] theorem bind_stuck (k : α → Future β) (w : World) :
    (Process.stuck : Process α).bind k w = (.stuck, w) := by
  rw [bind]

mutual

/-- Cuts a process off as soon as, when it is looked at again, a stop applies. -/
def cutOff (stop : World → Option α) (wake : Wait) (p : Process α) : Process α :=
  match p with
  | .done a => .done a
  | .waiting on resume =>
    .waiting (wake.or on) fun w =>
      match stop w with
      | some a => (.done a, w)
      | none => cutOffPair stop wake (resume w)
  | .stuck =>
    .waiting wake fun w =>
      match stop w with
      | some a => (.done a, w)
      | none => (.stuck, w)
termination_by structural p

def cutOffPair (stop : World → Option α) (wake : Wait) (p : Process α × World) :
    Process α × World :=
  match p with
  | (q, w) => (cutOff stop wake q, w)
termination_by structural p

end

theorem cutOffPair_eq (stop : World → Option α) (wake : Wait) (p : Process α × World) :
    cutOffPair stop wake p = (p.1.cutOff stop wake, p.2) := by
  cases p
  rw [cutOffPair]

@[simp] theorem cutOff_done (stop : World → Option α) (wake : Wait) (a : α) :
    (Process.done a).cutOff stop wake = .done a := by
  rw [cutOff]

@[simp] theorem cutOff_waiting (stop : World → Option α) (wake : Wait) (on : Wait)
    (resume : World → Process α × World) :
    (Process.waiting on resume).cutOff stop wake =
      .waiting (wake.or on) fun w =>
        match stop w with
        | some a => (.done a, w)
        | none => ((resume w).1.cutOff stop wake, (resume w).2) := by
  rw [cutOff]
  simp only [cutOffPair_eq]

@[simp] theorem cutOff_stuck (stop : World → Option α) (wake : Wait) :
    (Process.stuck : Process α).cutOff stop wake =
      .waiting wake fun w =>
        match stop w with
        | some a => (.done a, w)
        | none => (.stuck, w) := by
  rw [cutOff]

/-- What a process waits for. -/
def wait? : Process α → Option Wait
  | .waiting on _ => some on
  | _ => none

/-- The result of a finished process. -/
def result? : Process α → Option α
  | .done a => some a
  | _ => none

/-- Looks at a process again: it goes on if its wait is over. -/
def poll (p : Process α) : Future α := fun w =>
  match p with
  | .waiting on resume => if on.isOver w then resume w else (p, w)
  | _ => (p, w)

end Process

namespace Future

variable {α β : Type}

/-- A result without any work. -/
def ready (a : α) : Future α := fun w => (.done a, w)

/-- Work that never ends. -/
def never : Future α := fun w => (.stuck, w)

/-- Goes on with further work when the first has finished. -/
def bind (f : Future α) (k : α → Future β) : Future β := fun w =>
  (f w).1.bind k (f w).2

/-- Waits until an instant; if it has come already there is no wait. -/
def sleepUntil (t : Instant) : Future Unit := fun w =>
  if t.reached w.clock then (.done (), w)
  else (.waiting ⟨[], [t]⟩ fun w => (.done (), w), w)

/-- Cuts work off as soon as, when it is looked at, a stop applies. -/
def cutOff (stop : World → Option α) (wake : Wait) (f : Future α) : Future α := fun w =>
  match stop w with
  | some a => (.done a, w)
  | none => ((f w).1.cutOff stop wake, (f w).2)

end Future

/-- The bounds of a call: its cancellation signal first, then its deadline, with the messages that
say which of the two ended it. -/
structure Bounds where
  token : Token
  canceled : String
  deadline : Option Instant
  expired : String
deriving DecidableEq

namespace Bounds

/-- Why a call within these bounds has to end now. -/
def broken? (b : Bounds) (w : World) : Option CallError :=
  if w.isCanceled b.token then some (.canceled b.canceled)
  else if w.isPast b.deadline then some (.deadlineExceeded b.expired)
  else none

/-- The wait for either bound. -/
def wait (b : Bounds) : Wait := ⟨[b.token], b.deadline.toList⟩

/-- Work within the bounds; whenever it is looked at the bounds come first. -/
def limit {α : Type} (b : Bounds) (f : Future (Except CallError α)) :
    Future (Except CallError α) :=
  f.cutOff (fun w => (b.broken? w).map .error) b.wait

/-- The bounds are broken exactly when the wait for them is over. -/
theorem isSome_broken? (b : Bounds) (w : World) : (b.broken? w).isSome = b.wait.isOver w := by
  unfold broken? wait Wait.isOver World.isPast
  cases hd : b.deadline <;> cases hc : w.isCanceled b.token <;> simp [hc]
  split <;> simp_all

end Bounds

end RpcPolicy
