import RpcPolicy.Client.Basic
import RpcPolicy.Rehearsal.Layer
import RpcPolicy.Rehearsal.Schedule
import RpcPolicy.Rehearsal.Script
import RpcPolicy.Security.Handshake
/-! Sessions: calls through assembled layers, step after step on one clock. -/

namespace RpcPolicy.Session

/-- What a session's layers are assembled around. -/
inductive Base where
  /-- A whole configuration. -/
  | configured (config : ClientConfig)
  /-- Policies given one by one. -/
  | policies (retry : Option (BackoffPolicy × Option UInt64 × SleepKind))
      (limit : Option (Binary64 × UInt32)) (options : CallOptions)

/-- What calls are made through. -/
inductive Mode where
  /-- The bare chain around the transport. -/
  | chain
  /-- A client on an established connection. -/
  | client
  /-- A client that opens its connection, which may be refused. -/
  | connected (target : String) (refusal : Option CallError)

/-- Everything that stays the same in a session. -/
structure Plan where
  base : Base
  keepalive : Keepalive
  unary : List Layer
  stream : List Layer
  mode : Mode

/-- When a call is canceled. -/
inductive Cancellation where
  /-- Before it is made. -/
  | before
  /-- A length of time after now. -/
  | after (delay : Duration)
deriving DecidableEq

/-- A unary call of a session. -/
structure UnaryStep where
  client : Nat
  procedure : String
  body : Body
  metadata : Metadata
  /-- How long after now the deadline is. -/
  timeout : Option Duration
  /-- How long after the start the deadline is, in place of a timeout. -/
  deadline : Option Duration
  cancellation : Option Cancellation

/-- A streaming call of a session. -/
structure StreamStep where
  client : Nat
  procedure : String
  messages : List Body
  metadata : Metadata
  cancellation : Option Cancellation

/-- A step of a session. -/
inductive Step where
  | unary (call : UnaryStep)
  | stream (call : StreamStep)
  /-- Calls that run together. -/
  | concurrent (calls : List UnaryStep)
  /-- A call made a number of times, each after the last. -/
  | repeated (times : Nat) (call : UnaryStep)
  /-- Moves the clock. -/
  | advance (length : Duration)
  /-- One more copy of a client. -/
  | clone (client : Nat)
  /-- One more client from the same options. -/
  | newClient
  /-- One more client from options assembled anew. -/
  | redial
  /-- Looks into the bucket of the base. -/
  | bucket
  | callOptions (client : Nat)

/-- What a step gives. -/
inductive Result where
  | nothing
  | unary (outcome : Outcome)
  | stream (outcome : Except CallError Streaming)
  | concurrent (outcomes : List Outcome)
  | repeated (succeeded : Nat) (last : Option Outcome)
  | tokens (available : Option Binary64)
  | options (options : Option CallOptions)

/-- The text and the journal a step leaves, and the clock behind it. -/
structure Report where
  result : Result
  now : Instant
  log : List Entry

/-- Something calls go through. -/
structure Handle where
  unary : Request → Future Outcome
  stream : StreamRequest → Future (Except CallError Streaming)
  /-- The options of every call; a bare chain has none of its own. -/
  options : Option CallOptions

namespace Handle

/-- The bare chain around a transport. -/
def ofChain (t : Transport) (o : DialOptions) : Handle where
  unary := Unary.deferred (o.unary.wrapUnary t.unary)
  stream request := fun w =>
    let (call, w) := o.stream.wrapStream t.stream request w
    call w
  options := none

def ofClient (c : Client) : Handle where
  unary := c.unary
  stream := c.stream
  options := some c.options

end Handle

/-- Assembled options and the limiter of the base. -/
structure Assembled where
  options : DialOptions
  limiter : Option Limiter

/-- Why a session cannot begin, or cannot go on. -/
inductive Fault where
  | layer (error : CallError)
  | dial (error : DialError)
  /-- A call waits, and the clock cannot be moved on for it. -/
  | stuck

/-- The longest sleep that timers are documented to support, `2^36 - 2` milliseconds or a little
more than two years. The clock of a session is not moved on further than that at once. -/
def reach : Duration := .ofMillis (2 ^ 36 - 2)

/-- The chain of policies given one by one, without validation. -/
def assemblePolicies (retry : Option (BackoffPolicy × Option UInt64 × SleepKind))
    (limit : Option (Binary64 × UInt32)) (w : World) : UnaryPolicies × World :=
  let (retry, w) :=
    match retry with
    | none => (none, w)
    | some (policy, seed, sleep) =>
      let (retry, w) := Retry.create policy seed sleep.sleep w
      (some retry, w)
  let (limiter, w) :=
    match limit with
    | none => (none, w)
    | some (rate, burst) =>
      let (limiter, w) := Limiter.create rate burst w
      (some limiter, w)
  (⟨retry, limiter⟩, w)

namespace Plan

/-- The layers of the plan as interceptors. -/
def layers (p : Plan) (w : World) :
    Except CallError ((List Interceptor × List Interceptor) × World) :=
  let made := do
    let unary ← assembleAll p.unary
    let stream ← assembleAll p.stream
    return (unary, stream)
  (made (Assembly.ofWorld w)).map fun (is, a) => (is, a.world)

/-- Assembles the options of the plan. -/
def assemble (p : Plan) (w : World) : Except Fault Assembled × World :=
  match p.layers w with
  | .error e => (.error (.layer e), w)
  | .ok ((unary, stream), w) =>
    match p.base with
    | .configured config =>
      let provider := .resolving (config.tls.transportSecurity (Toolkit.ofDisk (Disk.ofNodes [])))
      let (options, w) := config.dial provider unary stream p.keepalive w
      match options with
      | .error e => (.error (.dial e), w)
      | .ok options => (.ok ⟨options, none⟩, w)
    | .policies retry limit options =>
      let (policies, w) := assemblePolicies retry limit w
      let options : DialOptions :=
        ⟨.insecure, options, policies.compose unary, ⟨stream⟩, p.keepalive⟩
      (.ok ⟨options, policies.limiter⟩, w)

/-- The connector of the plan: every attempt is written down, and some are refused. -/
def connector (refusal : Option CallError) : Connector := fun target o w =>
  let w := w.record (.connect target o.security.isTls o.keepalive)
  match refusal with
  | some e => (.done (.error e), w)
  | none => (.done (.ok Transport.scripted), w)

/-- Opens what calls go through. -/
def openHandle (p : Plan) (o : DialOptions) (w : World) : Except CallError Handle × World :=
  match p.mode with
  | .chain => (.ok (.ofChain Transport.scripted o), w)
  | .client => (.ok (.ofClient (.ofTransport Transport.scripted o)), w)
  | .connected target refusal =>
    let (process, w) := Client.connect (connector refusal) target o w
    match process with
    | .done outcome => (outcome.map Handle.ofClient, w)
    | _ => (.error (.transport "connection never opened"), w)

end Plan

/-- A session under way. -/
structure State where
  assembled : Assembled
  handles : List Handle
  /-- The next cancellation signal. -/
  nextToken : Token
  world : World

/-- A signal of its own for a call, given before or after now. -/
def issueToken (cancellation : Option Cancellation) (token : Token) (w : World) :
    List Schedule.Alarm × World :=
  match cancellation with
  | none => ([], w)
  | some .before => ([], w.cancel token)
  | some (.after delay) => ([⟨w.clock.after delay, token⟩], w)

namespace UnaryStep

/-- The request of a call. -/
def request (s : UnaryStep) (token : Token) (w : World) : Request :=
  let request := { Request.ofBody s.procedure s.body token with metadata := s.metadata }
  match s.deadline, s.timeout with
  | some length, _ => (request.withTimeout? .start length).getD request
  | none, some length => (request.withTimeout? w.clock length).getD request
  | none, none => request

/-- Work that never ends, in place of a client that is not there. -/
def work (s : UnaryStep) (handles : List Handle) (request : Request) : Future Outcome :=
  match handles[s.client]? with
  | none => .never
  | some handle => handle.unary request

end UnaryStep

/-- Runs work on the clock of a session to its end. -/
def runAll {α : Type} (alarms : List Schedule.Alarm) (work : List (Future α)) (w : World) :
    Except Fault (List α × World) :=
  let (outcomes, w) := Schedule.run (some reach) alarms work w
  match outcomes.mapM id with
  | none => .error .stuck
  | some outcomes => .ok (outcomes, w)

/-- Runs unary calls together. -/
def runUnary (calls : List UnaryStep) (s : State) : Except Fault (List Outcome × State) := do
  let prepare (acc : (List (Future Outcome) × List Schedule.Alarm) × Token × World)
      (call : UnaryStep) : (List (Future Outcome) × List Schedule.Alarm) × Token × World :=
    let ((work, alarms), token, w) := acc
    let (alarm, w) := issueToken call.cancellation token w
    let future := call.work s.handles (call.request token w)
    ((work ++ [future], alarms ++ alarm), token + 1, w)
  let ((work, alarms), token, w) := calls.foldl prepare (([], []), s.nextToken, s.world)
  let (outcomes, w) ← runAll alarms work w
  return (outcomes, { s with nextToken := token, world := w })

/-- Runs a unary call a number of times; counts the successes and keeps the last outcome. -/
def runRepeated (call : UnaryStep) : Nat → Nat → Option Outcome → State →
    Except Fault ((Nat × Option Outcome) × State)
  | 0, succeeded, last, s => .ok ((succeeded, last), s)
  | times + 1, succeeded, _, s => do
    let (outcomes, s) ← runUnary [call] s
    let last := outcomes.head?
    let succeeded :=
      match last with
      | some (.ok _) => succeeded + 1
      | _ => succeeded
    runRepeated call times succeeded last s

/-- Runs a streaming call. -/
def runStream (call : StreamStep) (s : State) :
    Except Fault (List (Except CallError Streaming) × State) := do
  let token := s.nextToken
  let (alarms, w) := issueToken call.cancellation token s.world
  let request : StreamRequest :=
    ⟨call.procedure, call.metadata, call.messages, .standard, token⟩
  let work :=
    match s.handles[call.client]? with
    | none => Future.never
    | some handle => handle.stream request
  let (outcomes, w) ← runAll alarms [work] w
  return (outcomes, { s with nextToken := token + 1, world := w })

/-- Adds something more that calls go through. -/
def addHandle (p : Plan) (a : Assembled) (s : State) : State :=
  match p.openHandle a.options s.world with
  | (.error _, w) => { s with world := w }
  | (.ok handle, w) => { s with handles := s.handles ++ [handle], world := w }

/-- Takes a step. -/
def step (p : Plan) (s : State) : Step → Except Fault (Result × State)
  | .unary call => do
    let (outcomes, s) ← runUnary [call] s
    return (outcomes.head?.elim .nothing .unary, s)
  | .stream call => do
    let (outcomes, s) ← runStream call s
    return (outcomes.head?.elim .nothing .stream, s)
  | .concurrent calls => do
    let (outcomes, s) ← runUnary calls s
    return (.concurrent outcomes, s)
  | .repeated times call => do
    let journal := s.world.journal
    let ((succeeded, last), s) ← runRepeated call times 0 none s
    return (.repeated succeeded last, { s with world := { s.world with journal } })
  | .advance length =>
    let clock := s.world.clock.after length
    .ok (.nothing, { s with world := { s.world with clock } })
  | .clone client => .ok (.nothing, { s with handles := s.handles ++ (s.handles[client]?).toList })
  | .newClient => .ok (.nothing, addHandle p s.assembled s)
  | .redial =>
    match p.assemble s.world with
    | (.error _, w) => .ok (.nothing, { s with world := w })
    | (.ok assembled, w) => .ok (.nothing, addHandle p assembled { s with assembled, world := w })
  | .bucket =>
    match s.assembled.limiter with
    | none => .ok (.tokens none, s)
    | some limiter =>
      let (tokens, w) := s.world.available limiter.place
      .ok (.tokens tokens, { s with world := w })
  | .callOptions client => .ok (.options ((s.handles[client]?).bind Handle.options), s)

/-- Takes steps in order; each report holds the journal of its step. -/
def steps (p : Plan) : State → List Step → Except Fault (List Report)
  | _, [] => .ok []
  | s, st :: rest => do
    let (result, s) ← step p { s with world := { s.world with journal := [] } } st
    return ⟨result, s.world.clock, s.world.log⟩ :: (← steps p s rest)

/-- What became of a session that began. -/
structure Transcript where
  unaryNames : List String
  streamNames : List String
  /-- Why no connection was opened. -/
  refusal : Option CallError
  /-- The journal up to the first step. -/
  log : List Entry
  reports : List Report

/-- Runs a session from the assembly of its layers to its last step, unless it gets stuck. -/
def run (p : Plan) (w : World) (program : List Step) : Except Fault Transcript := do
  match p.assemble w with
  | (.error e, _) => .error e
  | (.ok assembled, w) =>
    let unary := assembled.options.unary.names
    let stream := assembled.options.stream.names
    match p.openHandle assembled.options w with
    | (.error e, w) => .ok ⟨unary, stream, some e, w.log, []⟩
    | (.ok handle, w) =>
      return ⟨unary, stream, none, w.log, ← steps p ⟨assembled, [handle], 0, w⟩ program⟩

end RpcPolicy.Session
