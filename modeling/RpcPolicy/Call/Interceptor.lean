import RpcPolicy.Call.Process
/-! Layers around calls, and chains of them with the first outermost. -/

namespace RpcPolicy

/-- A unary call: making it may act at once, the future it gives does the rest. -/
abbrev Unary := Request → World → Future Outcome × World

/-- A streaming call: making it may act at once, the future it gives does the rest. -/
abbrev StreamCall := StreamRequest → World → Future (Except CallError Streaming) × World

/-- A call that is made only when its future is first looked at. -/
def Unary.deferred (next : Unary) (request : Request) : Future Outcome := fun w =>
  (next request w).1 (next request w).2

/-- A layer around calls; it passes on what it does not change. -/
structure Interceptor where
  /-- A short name for diagnostics. -/
  name : String
  wrapUnary : Unary → Unary := id
  wrapStream : StreamCall → StreamCall := id

instance : Inhabited Interceptor := ⟨{ name := "" }⟩

/-- Layers in order, the outermost first. -/
structure Chain where
  layers : List Interceptor
deriving Inhabited

namespace Chain

def names (c : Chain) : List String :=
  c.layers.map Interceptor.name

/-- Wraps a unary call in every layer. -/
def wrapUnary (c : Chain) (call : Unary) : Unary :=
  c.layers.foldr Interceptor.wrapUnary call

/-- Wraps a streaming call in every layer. -/
def wrapStream (c : Chain) (call : StreamCall) : StreamCall :=
  c.layers.foldr Interceptor.wrapStream call

@[simp] theorem wrapUnary_nil (call : Unary) : (Chain.mk []).wrapUnary call = call := rfl

@[simp] theorem wrapUnary_cons (i : Interceptor) (is : List Interceptor) (call : Unary) :
    (Chain.mk (i :: is)).wrapUnary call = i.wrapUnary ((Chain.mk is).wrapUnary call) := rfl

@[simp] theorem wrapStream_nil (call : StreamCall) : (Chain.mk []).wrapStream call = call := rfl

@[simp] theorem wrapStream_cons (i : Interceptor) (is : List Interceptor) (call : StreamCall) :
    (Chain.mk (i :: is)).wrapStream call = i.wrapStream ((Chain.mk is).wrapStream call) := rfl

theorem wrapUnary_append (is js : List Interceptor) (call : Unary) :
    (Chain.mk (is ++ js)).wrapUnary call =
      (Chain.mk is).wrapUnary ((Chain.mk js).wrapUnary call) := by
  simp [wrapUnary]

theorem wrapStream_append (is js : List Interceptor) (call : StreamCall) :
    (Chain.mk (is ++ js)).wrapStream call =
      (Chain.mk is).wrapStream ((Chain.mk js).wrapStream call) := by
  simp [wrapStream]

/-- The names of the layers, quoted. -/
def quotedNames (c : Chain) : String :=
  Text.bracketed (c.names.map Text.quoted)

/-- The text that shows every part. -/
def structureText (c : Chain) : String :=
  Text.record "InterceptorChain" [("interceptors", c.quotedNames)] false

end Chain

namespace Interceptor

/-- A chain as one layer. -/
def ofChain (c : Chain) : Interceptor where
  name := "chain"
  wrapUnary := c.wrapUnary
  wrapStream := c.wrapStream

/-- Gives a metadata name one value in every request, as soon as the call is made. -/
def header (name : MetadataName) (value : MetadataValue) : Interceptor where
  name := "header"
  wrapUnary next := fun request w =>
    next { request with metadata := request.metadata.insert name value } w
  wrapStream next := fun request w =>
    next { request with metadata := request.metadata.insert name value } w

/-- A layer made of one function, which gets the next call in deferred form. -/
def ofFunction (f : (Request → Future Outcome) → Unary) : Interceptor where
  name := "fn"
  wrapUnary next := f next.deferred

/-- The text that shows a layer made of one function. -/
def functionText : String := "FnInterceptor"

end Interceptor

/-- A name and a value for a header layer, if both texts are sound; the name is looked at first. -/
def headerParts (name value : String) : Except CallError (MetadataName × MetadataValue) :=
  match MetadataName.ofText? name with
  | none => .error (.protocol ("invalid metadata key: " ++ name))
  | some n =>
    match MetadataValue.ofText? value with
    | none => .error (.protocol ("invalid metadata value: " ++ value))
    | some v => .ok (n, v)

/-- The text that shows the name and the value of a header layer. -/
def headerText (name : MetadataName) (value : MetadataValue) : String :=
  Text.record "HeaderInterceptor" [("name", Text.quoted name.text), ("value", value.quoted)] false

end RpcPolicy
