import RpcPolicy.Proofs.Client.Handover
import RpcPolicy.Proofs.Call.Moves
import RpcPolicy.Rehearsal.Layer
/-! Layers around streaming calls. Main statement: policies, functions and layers that pass
everything on may be taken out of any chain, and out of the chains in it. -/

namespace RpcPolicy

/-- A streaming call that is made only when its future is first looked at. -/
def StreamCall.deferred (next : StreamCall) (request : StreamRequest) :
    Future (Except CallError Streaming) := fun w =>
  (next request w).1 (next request w).2

/-- Layers that have no part in streaming calls: policies, functions, and layers that pass
everything on. -/
inductive UnaryOnly : Interceptor → Prop
  | retry (r : Retry) : UnaryOnly r.interceptor
  | limiter (l : Limiter) : UnaryOnly l.interceptor
  | function (f : (Request → Future Outcome) → Unary) : UnaryOnly (.ofFunction f)
  | plain (name : String) : UnaryOnly { name }

/-- Some layers without some of those that have no part in streaming calls, at any place and within
nested chains; the layers of a nested chain may also stand in its place. -/
inductive Stripped : List Interceptor → List Interceptor → Prop
  | nil : Stripped [] []
  | without {i : Interceptor} {is js : List Interceptor} (only : UnaryOnly i)
      (rest : Stripped is js) : Stripped (i :: is) js
  | keep (i : Interceptor) {is js : List Interceptor} (rest : Stripped is js) :
      Stripped (i :: is) (i :: js)
  | within {ks ms is js : List Interceptor} (inner : Stripped ks ms) (rest : Stripped is js) :
      Stripped (.ofChain ⟨ks⟩ :: is) (.ofChain ⟨ms⟩ :: js)
  | spread {ks is js : List Interceptor} (rest : Stripped (ks ++ is) js) :
      Stripped (.ofChain ⟨ks⟩ :: is) js

variable {i : Interceptor} {is js : List Interceptor} {next : StreamCall}

theorem UnaryOnly.wrapStream (h : UnaryOnly i) (next : StreamCall) : i.wrapStream next = next := by
  cases h <;> rfl

theorem Stripped.wrapStream (h : Stripped is js) (next : StreamCall) :
    (Chain.mk is).wrapStream next = (Chain.mk js).wrapStream next := by
  induction h generalizing next with
  | nil => rfl
  | without only _ ih => rw [Chain.wrapStream_cons, only.wrapStream, ih]
  | keep i _ ih => rw [Chain.wrapStream_cons, Chain.wrapStream_cons, ih]
  | within _ _ ihInner ih =>
    rw [Chain.wrapStream_cons, Chain.wrapStream_cons, ih]
    exact ihInner _
  | spread _ ih =>
    rw [Chain.wrapStream_cons, ← ih, Chain.wrapStream_append]
    rfl

/-! ### Layers that pass messages on -/

/-- The buckets are left alone. -/
def Unmoved : Environment := fun w v => v.buckets = w.buckets

theorem flow_unmoved : Flow Unmoved where
  idle h := h
  trans h h' := h'.trans h

/-- What layers may do on their own: tell an observer, at least, and leave the buckets alone. -/
structure Quiet (R : Environment) : Prop where
  refl : ∀ w, R w w
  trans : ∀ {u v w}, R u v → R v w → R u w
  told : ∀ w e, R w (w.record e)
  buckets : ∀ w v, R w v → Unmoved w v

/-- Making a call moves the world by `R`. -/
def StreamCall.Makes (R : Environment) (next : StreamCall) : Prop :=
  ∀ request w, R w (next request w).2

/-- A layer that makes the next call at most once, with the options it gets, and hands back its
messages. Anything else it may change, and it may move the world by `R`. -/
structure Conduit (R : Environment) where
  interceptor : Interceptor
  before : StreamRequest → Future (Except CallError StreamRequest)
  after : StreamRequest → Except CallError Streaming → Future (Except CallError Streaming)
  wraps : ∀ next request, (interceptor.wrapStream next).deferred request =
    Future.bind (before request) fun
      | .error e => .ready (.error e)
      | .ok sent => Future.bind (next.deferred sent) (after request)
  made : ∀ next : StreamCall, next.Makes R → (interceptor.wrapStream next).Makes R
  begins : ∀ request, (before request).Moves R
  finishes : ∀ request x, (after request x).Moves R
  options : ∀ env request w sent v, (before request).Ends env w (.ok sent) v →
    sent.options = request.options
  hands : ∀ env request w x streaming v, (after request x).Ends env w (.ok streaming) v →
    ∃ opened, x = .ok opened ∧ streaming.inbound = opened.inbound

/-- Layers of which chains around streaming calls are made. -/
inductive Passing (R : Environment) : Interceptor → Prop
  | unaryOnly {i : Interceptor} (only : UnaryOnly i) : Passing R i
  | conduit (c : Conduit R) : Passing R c.interceptor
  | chain (c : Chain) (layers : ∀ i ∈ c.layers, Passing R i) : Passing R (.ofChain c)

namespace Conduit

variable {R : Environment}

/-- The header layer. -/
def header (hR : Quiet R) (name : MetadataName) (value : MetadataValue) : Conduit R where
  interceptor := .header name value
  before request := .ready (.ok { request with metadata := request.metadata.insert name value })
  after _ := .ready
  wraps next request := (Future.bind_ready (next.deferred
    { request with metadata := request.metadata.insert name value })).symm
  made _ hnext _ _ := hnext _ _
  begins _ w := ⟨hR.refl w, .done _⟩
  finishes _ _ w := ⟨hR.refl w, .done _⟩
  options _ _ _ _ _ h := by
    obtain ⟨heq, -⟩ := Future.ends_ready h
    cases heq
    rfl
  hands _ _ _ _ streaming _ h := by
    obtain ⟨rfl, -⟩ := Future.ends_ready h
    exact ⟨streaming, rfl, rfl⟩

/-- The layer that notes the beginning and the end of every call. -/
def tap (hR : Quiet R) (label : String) : Conduit R where
  interceptor := .tap label .plain
  before request := fun w => (.done (.ok request), w.record (.note (label ++ ":enter")))
  after _ x := fun w => (.done x, w.record (.note (label ++ ":" ++ outcomeName x)))
  wraps _ _ := rfl
  made _ hnext _ _ := hR.trans (hR.told _ _) (hnext _ _)
  begins _ _ := ⟨hR.told _ _, .done _⟩
  finishes _ _ _ := ⟨hR.told _ _, .done _⟩
  options _ _ _ _ _ h := by
    cases h
    rfl
  hands _ _ _ _ streaming _ h := by
    cases h
    exact ⟨streaming, rfl, rfl⟩

end Conduit

end RpcPolicy
