import RpcPolicy.Call.Limiter
import RpcPolicy.Call.Retry
/-! Layers by description, and the assembly that makes interceptors of them. -/

namespace RpcPolicy

/-- How a retry layer lets time pass. -/
inductive SleepKind where
  | timer
  | recorded
  | logged
deriving DecidableEq, Inhabited

/-- The sleep of a kind. -/
def SleepKind.sleep : SleepKind → Sleep
  | timer => Sleep.timer
  | recorded => Sleep.recorded
  | logged => Sleep.logged

/-- What a layer made of one function does. -/
inductive Action where
  /-- Leaves a note. -/
  | note (label : String)
  /-- Gives a metadata name a value, or one more. -/
  | setMetadata (name : MetadataName) (value : MetadataValue) (append : Bool)
  /-- Gives a metadata name of the response one value. -/
  | setResponse (name : MetadataName) (value : MetadataValue)
  /-- Fails the first calls, or all of them. -/
  | fail (error : CallError) (times : Option Nat)
  | reply (body : Body)
  /-- Answers for a call that failed. -/
  | recover (body : Body)
  /-- Replaces the failure of a call. -/
  | replaceError (error : CallError)
  | setBody (body : Body)
  | setOptions (options : CallOptions)
  /-- Sets the deadline a length of time after now. -/
  | setTimeout (timeout : Duration)
  | delay (length : Duration)
  | cancel
  /-- Makes the call, drops what it ends in, and makes it again. -/
  | twice
deriving DecidableEq

/-- A layer by description. -/
inductive Layer where
  | header (name value : String)
  | headerParts (name : MetadataName) (value : MetadataValue)
  | chain (layers : List Layer)
  | retry (policy : BackoffPolicy) (seed : Option UInt64) (sleep : SleepKind)
  /-- A limiter; those of one assembly that name the same bucket share it. -/
  | limiter (rate : Binary64) (burst : UInt32) (bucket : Option String)
  | plain
  /-- Notes the beginning and the end of every call. -/
  | tap (label : String) (inner : Option Layer)
  | action (action : Action)
deriving Inhabited

/-- A layer that notes the beginning and the end of every call through another one. -/
def Interceptor.tap (label : String) (inner : Interceptor) : Interceptor where
  name := "tap"
  wrapUnary next := fun request w =>
    let (call, w) := inner.wrapUnary next request (w.record (.note (label ++ ":enter")))
    (Future.bind call fun outcome => fun w =>
      (.done outcome, w.record (.note (label ++ ":" ++ outcomeName outcome))), w)
  wrapStream next := fun request w =>
    let (call, w) := inner.wrapStream next request (w.record (.note (label ++ ":enter")))
    (Future.bind call fun outcome => fun w =>
      (.done outcome, w.record (.note (label ++ ":" ++ outcomeName outcome))), w)

/-- A layer that passes everything on. -/
def Interceptor.plain : Interceptor where
  name := "<type>"

/-- The function of an action; `place` is where it counts its calls. -/
def Action.apply (action : Action) (place : Nat) (next : Request → Future Outcome) : Unary :=
  fun request w =>
    match action with
    | note label => (next request, w.record (.note label))
    | setMetadata name value append =>
      let metadata :=
        if append then request.metadata.append name value else request.metadata.insert name value
      (next { request with metadata }, w)
    | setResponse name value =>
      (Future.bind (next request) fun outcome => .ready (outcome.map fun response =>
        { response with metadata := response.metadata.insert name value }), w)
    | fail error times =>
      let (made, w) := w.count place
      (if times.all fun n => made < n then .ready (.error error) else next request, w)
    | reply body => (.ready (.ok ⟨[], body⟩), w)
    | recover body =>
      (Future.bind (next request) fun
        | .ok response => .ready (.ok response)
        | .error _ => .ready (.ok ⟨[], body⟩), w)
    | replaceError error =>
      (Future.bind (next request) fun
        | .ok response => .ready (.ok response)
        | .error _ => .ready (.error error), w)
    | setBody body => (next { request with body }, w)
    | setOptions options => (next { request with options }, w)
    | setTimeout timeout => (next ((request.withTimeout? w.clock timeout).getD request), w)
    | delay length =>
      (fun w => Future.bind (.sleepUntil (w.clock.after length)) (fun _ => next request) w, w)
    | cancel => (next request, w.cancel request.token)
    | twice => (Future.bind (next request) fun _ => next request, w)

/-- Interceptors in the making: the world they live in and the limiters with a named bucket. -/
structure Assembly where
  world : World
  shared : List (String × Limiter)
deriving Inhabited

namespace Assembly

/-- An assembly with nothing made yet. -/
def ofWorld (w : World) : Assembly := ⟨w, []⟩

/-- A limiter; one that names a bucket takes it from the first with that name. -/
def limiter (a : Assembly) (rate : Binary64) (burst : UInt32) (bucket : Option String) :
    Limiter × Assembly :=
  match bucket.bind fun name => a.shared.lookup name with
  | some l => (l, a)
  | none =>
    let (l, world) := Limiter.create rate burst a.world
    (l, ⟨world, (bucket.map (·, l)).toList ++ a.shared⟩)

end Assembly

/-- A step of an assembly; a name or a value that is not sound ends it. -/
abbrev Assemble := StateT Assembly (Except CallError)

mutual

/-- Makes the interceptor of a layer. -/
def Layer.assemble : Layer → Assemble Interceptor
  | .header name value => do
    let (name, value) ← headerParts name value
    return .header name value
  | .headerParts name value => return .header name value
  | .chain layers => do
    let interceptors ← assembleAll layers
    return .ofChain ⟨interceptors⟩
  | .retry policy seed sleep => do
    let a ← get
    let (retry, world) := Retry.create policy seed sleep.sleep a.world
    set { a with world }
    return retry.interceptor
  | .limiter rate burst bucket => do
    let (l, a) := (← get).limiter rate burst bucket
    set a
    return l.interceptor
  | .plain => return .plain
  | .tap label inner => do
    let inner ← assembleInner inner
    return .tap label inner
  | .action action => do
    let a ← get
    let (place, world) := a.world.addCounter
    set { a with world }
    return .ofFunction (action.apply place)

/-- Makes the interceptors of layers in order. -/
def assembleAll : List Layer → Assemble (List Interceptor)
  | [] => return []
  | layer :: rest => do
    let i ← layer.assemble
    let is ← assembleAll rest
    return i :: is

/-- Makes the interceptor of a layer, or one that passes everything on. -/
def assembleInner : Option Layer → Assemble Interceptor
  | none => return .plain
  | some layer => layer.assemble

end

end RpcPolicy
