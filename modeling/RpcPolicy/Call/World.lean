import RpcPolicy.Call.Message
import RpcPolicy.TokenBucket
/-! The state that calls share: the clock, canceled signals, buckets, counters and a journal. -/

namespace RpcPolicy

/-- How grave an event is. -/
inductive Level where
  | debug
  | warn
deriving DecidableEq

/-- The name of a level. -/
def Level.name : Level → String
  | debug => "DEBUG"
  | warn => "WARN"

/-- An entry of the journal. -/
inductive Entry where
  /-- A remark of an interceptor. -/
  | note (text : String)
  /-- A request as the transport receives it; calls are numbered from one. -/
  | call (number : Nat) (time : Instant) (request : Request)
  /-- A stream request as the transport receives it. -/
  | stream (time : Instant) (request : StreamRequest)
  /-- A backoff that is about to begin. -/
  | sleep (delay : Duration)
  /-- A connection attempt. -/
  | connect (target : String) (tls : Bool) (keepalive : Keepalive)
  /-- An event for an observer. -/
  | event (level : Level) (message : String) (fields : List (String × String))
  /-- The start of a span of work for an observer. -/
  | span (name : String) (fields : List (String × String))
deriving DecidableEq

/-- What a transport will answer to one call: after a delay, perhaps canceling the call. -/
structure Reply (α : Type) where
  outcome : Except CallError α
  delay : Option Duration
  cancels : Bool

/-- An answer to a unary call; without a body the request's comes back. -/
structure UnaryAnswer where
  metadata : Metadata
  body : Option Body
deriving Inhabited

/-- An answer to a streaming call; without messages the request's come back. -/
structure StreamAnswer where
  metadata : Metadata
  inbound : Option (List (Except CallError Body))
deriving Inhabited

/-- The state that calls share. -/
structure World where
  clock : Instant
  canceled : List Token
  buckets : List TokenBucket
  counters : List Nat
  /-- What happened, the latest first. -/
  journal : List Entry
  /-- How many calls the transport received. -/
  calls : Nat
  unaryScript : List (Reply UnaryAnswer)
  streamScript : List (Reply StreamAnswer)
  /-- The seed of the next cursor that is given none. -/
  entropy : UInt64
  /-- How many attempts of a call without a retry ceiling are followed. -/
  patience : Nat

namespace World

/-- Nothing has happened yet. -/
def initial : World where
  clock := .start
  canceled := []
  buckets := []
  counters := []
  journal := []
  calls := 0
  unaryScript := []
  streamScript := []
  entropy := 0
  patience := 2 ^ 64

instance : Inhabited World := ⟨initial⟩

/-- Adds an entry to the journal. -/
def record (w : World) (e : Entry) : World :=
  { w with journal := e :: w.journal }

/-- Adds entries to the journal, the earliest first. -/
def recordAll (w : World) (es : List Entry) : World :=
  es.foldl record w

/-- The journal in the order of events. -/
def log (w : World) : List Entry :=
  w.journal.reverse

def isCanceled (w : World) (t : Token) : Bool :=
  w.canceled.contains t

def cancel (w : World) (t : Token) : World :=
  { w with canceled := t :: w.canceled }

/-- Whether a deadline has come. -/
def isPast (w : World) (deadline : Option Instant) : Bool :=
  deadline.any (·.reached w.clock)

/-- Puts a bucket into the world and gives its place. -/
def addBucket (w : World) (b : TokenBucket) : Nat × World :=
  (w.buckets.length, { w with buckets := w.buckets ++ [b] })

/-- Puts a counter at zero into the world and gives its place. -/
def addCounter (w : World) : Nat × World :=
  (w.counters.length, { w with counters := w.counters ++ [0] })

/-- Reads a counter and adds one to it. -/
def count (w : World) (place : Nat) : Nat × World :=
  (w.counters[place]?.getD 0,
    { w with counters := w.counters.modify place (· + 1) })

/-- Takes a token from a bucket, if it has one. -/
def acquire (w : World) (place : Nat) : Bool × World :=
  match w.buckets[place]? with
  | none => (true, w)
  | some b =>
    let (admitted, b) := b.tryAcquire w.clock
    (admitted, { w with buckets := w.buckets.set place b })

/-- The tokens of a bucket. -/
def available (w : World) (place : Nat) : Option Binary64 × World :=
  match w.buckets[place]? with
  | none => (none, w)
  | some b =>
    let (tokens, b) := b.available w.clock
    (some tokens, { w with buckets := w.buckets.set place b })

@[simp] theorem log_record (w : World) (e : Entry) : (w.record e).log = w.log ++ [e] := by
  simp [log, record]

@[simp] theorem log_recordAll (w : World) (es : List Entry) :
    (w.recordAll es).log = w.log ++ es := by
  induction es generalizing w with
  | nil => simp [recordAll]
  | cons e es ih =>
    have h : w.recordAll (e :: es) = (w.record e).recordAll es := rfl
    rw [h, ih, log_record, List.append_assoc, List.singleton_append]

@[simp] theorem isCanceled_cancel (w : World) (s t : Token) :
    (w.cancel s).isCanceled t = (t == s || w.isCanceled t) := by
  simp only [isCanceled, cancel, List.contains_cons]

/-- Takes the next seed of the surroundings. -/
def nextSeed (w : World) : UInt64 × World :=
  (w.entropy, { w with entropy := w.entropy + 1 })

end World

end RpcPolicy
