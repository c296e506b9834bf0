import RpcPolicy.Proofs.Call.Progress
import RpcPolicy.Proofs.Streaming.Layers
/-! Chains of chains, and layers that observe. Main statement: chains within chains wrap calls like
the one chain of all their layers, and what observers note surrounds what the call does. -/

namespace RpcPolicy

variable {ρ α β γ : Type}

/-- What is to follow may be put together first. -/
theorem Process.bind_bind (p : Process α) (k : α → Future β) (l : β → Future γ) (w : World) :
    (p.bind k w).1.bind l (p.bind k w).2 = p.bind (fun a => Future.bind (k a) l) w := by
  induction p using Process.induct generalizing w with
  | done a =>
    rw [bind_done, bind_done]
    rfl
  | waiting on resume ih =>
    simp only [bind_waiting]
    simp only [ih]
  | stuck => simp only [bind_stuck]

theorem Future.bind_bind (f : Future α) (k : α → Future β) (l : β → Future γ) :
    Future.bind (Future.bind f k) l = Future.bind f fun a => Future.bind (k a) l := by
  funext w
  exact (f w).1.bind_bind k l (f w).2

/-- Calls of one kind. -/
abbrev Calls (ρ α : Type) := ρ → World → Future α × World

/-- How layers wrap calls of one kind. -/
abbrev Wrap (ρ α : Type) := Interceptor → Calls ρ α → Calls ρ α

/-- Layers that pass everything on wrap nothing, and a chain wraps in all its layers, the first
outermost. -/
structure Wrap.Sound (wrap : Wrap ρ α) : Prop where
  passing : ∀ name call, wrap { name } call = call
  chain : ∀ c call, wrap (.ofChain c) call = c.layers.foldr wrap call

theorem Interceptor.wrapUnary_sound : Wrap.Sound Interceptor.wrapUnary :=
  ⟨fun _ _ => rfl, fun _ _ => rfl⟩

theorem Interceptor.wrapStream_sound : Wrap.Sound Interceptor.wrapStream :=
  ⟨fun _ _ => rfl, fun _ _ => rfl⟩

/-! ### Chains within chains -/

/-- A layer, one that passes everything on, or a chain of chains to any depth. -/
inductive Nest where
  | layer (i : Interceptor)
  | passing (name : String)
  | chain (nests : List Nest)

namespace Nest

mutual

/-- The layer that a nest is. -/
def interceptor : Nest → Interceptor
  | layer i => i
  | passing name => { name }
  | chain nests => .ofChain ⟨interceptors nests⟩

/-- The layers that nests are. -/
def interceptors : List Nest → List Interceptor
  | [] => []
  | n :: ns => n.interceptor :: interceptors ns

end

mutual

/-- The layers of a nest from left to right, without those that pass everything on. -/
def leaves : Nest → List Interceptor
  | layer i => [i]
  | passing _ => []
  | chain nests => allLeaves nests

/-- The layers of nests from left to right. -/
def allLeaves : List Nest → List Interceptor
  | [] => []
  | n :: ns => n.leaves ++ allLeaves ns

end

variable {wrap : Wrap ρ α}

mutual

/-- By cases on the nest; a chain is left to its nests. -/
theorem wrap_interceptor (h : wrap.Sound) (n : Nest) (call : Calls ρ α) :
    wrap n.interceptor call = n.leaves.foldr wrap call := by
  cases n with
  | layer i =>
    rw [interceptor, leaves]
    rfl
  | passing name =>
    rw [interceptor, leaves]
    exact h.passing name call
  | chain nests =>
    rw [interceptor, leaves, h.chain]
    exact foldr_interceptors h nests call

theorem foldr_interceptors (h : wrap.Sound) (ns : List Nest) (call : Calls ρ α) :
    (interceptors ns).foldr wrap call = (allLeaves ns).foldr wrap call := by
  cases ns with
  | nil => rw [interceptors, allLeaves]
  | cons n ns =>
    rw [interceptors, allLeaves, List.foldr_cons, List.foldr_append, foldr_interceptors h ns call]
    exact wrap_interceptor h n _

end

end Nest

/-! ### Observers -/

/-- Making a call and looking at it at once. -/
def Calls.deferred (call : Calls ρ α) (request : ρ) : Future α := fun w =>
  (call request w).1 (call request w).2

/-- A layer that notes when a call begins, makes the next one with the same request, and notes what
that ends in when it has ended; the call ends in the same. -/
structure Observer (wrap : Wrap ρ (Except CallError α)) where
  layer : Interceptor
  entry : Entry
  completion : Except CallError α → Entry
  observes : ∀ next request w, (wrap layer next).deferred request w =
    Future.bind (next.deferred request) (fun x w => (.done x, w.record (completion x)))
      (w.record entry)

namespace Observer

variable {wrap : Wrap ρ (Except CallError α)}

/-- What is noted when a call begins: the outermost observer is the first to note. -/
def entries (os : List (Observer wrap)) : List Entry :=
  os.map Observer.entry

/-- What is noted when a call has ended: the outermost observer is the last to note. -/
def completions (os : List (Observer wrap)) (x : Except CallError α) : List Entry :=
  os.reverse.map fun o => o.completion x

/-- Notes what a call has ended in. -/
def complete (os : List (Observer wrap)) (x : Except CallError α) :
    Future (Except CallError α) := fun w =>
  (.done x, w.recordAll (completions os x))

variable {o : Observer wrap} {os : List (Observer wrap)} {x : Except CallError α}
  {next : Calls ρ (Except CallError α)} {request : ρ} {w : World}

theorem completions_cons : completions (o :: os) x = completions os x ++ [o.completion x] := by
  simp only [completions, List.reverse_cons, List.map_append, List.map_cons, List.map_nil]

/-- The outermost observer notes last. -/
theorem complete_cons : complete (o :: os) =
    fun x => Future.bind (complete os x) fun x w => (.done x, w.record (o.completion x)) := by
  funext x w
  simp only [complete, completions_cons, Future.bind, Process.bind_done, World.recordAll,
    List.foldl_append, List.foldl_cons, List.foldl_nil]

/-- A call through observers is the call they are around, once all of them have noted its
beginning, and then all of them note its end. -/
theorem deferred_foldr : ((os.map layer).foldr wrap next).deferred request w =
    Future.bind (next.deferred request) (complete os) (w.recordAll (entries os)) := by
  induction os generalizing w with
  | nil => exact (congrFun (Future.bind_ready (next.deferred request)) w).symm
  | cons o os ih =>
    -- The other observers are what the outermost one has for its next call.
    let inner := (os.map layer).foldr wrap next
    have hinner : inner.deferred request =
        fun v => Future.bind (next.deferred request) (complete os) (v.recordAll (entries os)) :=
      funext fun v => ih
    calc (wrap o.layer inner).deferred request w
        = Future.bind (inner.deferred request) (fun x w => (.done x, w.record (o.completion x)))
            (w.record o.entry) := o.observes inner request w
      _ = Future.bind (Future.bind (next.deferred request) (complete os))
            (fun x w => (.done x, w.record (o.completion x)))
            ((w.record o.entry).recordAll (entries os)) := by rw [hinner]; rfl
      _ = Future.bind (next.deferred request) (complete (o :: os))
            (w.recordAll (entries (o :: os))) := by rw [Future.bind_bind, complete_cons]; rfl

/-- The observer that notes at once that a call is made, and the name of what it ends in. -/
def tap (label : String) : Observer Interceptor.wrapUnary where
  layer := .tap label .plain
  entry := .note (label ++ ":enter")
  completion x := .note (label ++ ":" ++ outcomeName x)
  observes _ _ _ := rfl

/-- The same for streaming calls. -/
def tapStream (label : String) : Observer Interceptor.wrapStream where
  layer := .tap label .plain
  entry := .note (label ++ ":enter")
  completion x := .note (label ++ ":" ++ outcomeName x)
  observes _ _ _ := rfl

/-- The observer that is a function and does nothing before it is looked at. -/
def function (entry : Entry) (completion : Outcome → Entry) :
    Observer Interceptor.wrapUnary where
  layer := .ofFunction fun next request w =>
    (fun v => Future.bind (next request) (fun x v => (.done x, v.record (completion x)))
      (v.record entry), w)
  entry := entry
  completion := completion
  observes _ _ _ := rfl

end Observer

/-- A call through observers, made in a world, and the call they are around. -/
structure Surrounds {wrap : Wrap ρ (Except CallError α)} (os : List (Observer wrap))
    (outer inner : Future (Except CallError α)) (w : World) : Prop where
  work : outer w = Future.bind inner (Observer.complete os) (w.recordAll (Observer.entries os))
  ends : ∀ env x v, outer.Ends env w x v ↔
    ∃ u, inner.Ends env (w.recordAll (Observer.entries os)) x u ∧
      v = u.recordAll (Observer.completions os x)
  log : ∀ env x v, outer.Ends env w x v →
    ∃ u, inner.Ends env (w.recordAll (Observer.entries os)) x u ∧
      ∀ es, u.log = w.log ++ Observer.entries os ++ es →
        v.log = w.log ++ Observer.entries os ++ es ++ Observer.completions os x
  pending : ∀ env p v, outer.Becomes env w p v → p.Pending →
    ∃ q, inner.Becomes env (w.recordAll (Observer.entries os)) q v ∧ q.Pending

theorem surrounds_of_work {wrap : Wrap ρ (Except CallError α)} {os : List (Observer wrap)}
    {outer inner : Future (Except CallError α)} {w : World}
    (h : outer w = Future.bind inner (Observer.complete os) (w.recordAll (Observer.entries os))) :
    Surrounds os outer inner w := by
  have hends : ∀ env x v, outer.Ends env w x v ↔
      ∃ u, inner.Ends env (w.recordAll (Observer.entries os)) x u ∧
        v = u.recordAll (Observer.completions os x) := by
    intro env x v
    constructor
    · intro hv
      obtain ⟨y, u, hu, hlast⟩ := (hv.of_eq h).of_bind
      cases hlast
      exact ⟨u, hu, rfl⟩
    · rintro ⟨u, hu, rfl⟩
      exact (hu.bind (k := Observer.complete os) (.done x _)).of_eq h.symm
  refine ⟨h, hends, ?log, ?pending⟩
  case log =>
    intro env x v hv
    obtain ⟨u, hu, rfl⟩ := (hends env x v).mp hv
    refine ⟨u, hu, fun es hes => ?_⟩
    rw [World.log_recordAll, hes]
  case pending =>
    intro env p v hp hpending
    rcases Future.becomes_bind.mp (hp.of_eq h) with ⟨q, hq, hqpending, -⟩ | ⟨x, u, -, hlast⟩
    · exact ⟨q, hq, hqpending⟩
    · exact absurd (Process.becomes_of_done hlast).1 (hpending x)

/-! ### All chains -/

/-- Nested chains wrap calls as the one chain of all their layers does. The observers in it note the
beginning in order, and the end, with the outcome of the wrapped call, in reverse. -/
theorem Chain.flattens_and_surrounds :
    (∀ (n : Nest) (call : Unary),
      n.interceptor.wrapUnary call = (Chain.mk n.leaves).wrapUnary call) ∧
    (∀ (n : Nest) (call : StreamCall),
      n.interceptor.wrapStream call = (Chain.mk n.leaves).wrapStream call) ∧
    (∀ (os : List (Observer Interceptor.wrapUnary)) (next : Unary) (request : Request) (w : World),
      let wrapped := (Chain.mk (os.map Observer.layer)).wrapUnary next
      Surrounds os (wrapped.deferred request) (next.deferred request) w) ∧
    ∀ (os : List (Observer Interceptor.wrapStream)) (next : StreamCall) (request : StreamRequest)
      (w : World),
      let wrapped := (Chain.mk (os.map Observer.layer)).wrapStream next
      Surrounds os (wrapped.deferred request) (next.deferred request) w :=
  ⟨fun n call => Nest.wrap_interceptor Interceptor.wrapUnary_sound n call,
    fun n call => Nest.wrap_interceptor Interceptor.wrapStream_sound n call,
    fun _ _ _ _ => surrounds_of_work Observer.deferred_foldr,
    fun _ _ _ _ => surrounds_of_work Observer.deferred_foldr⟩

/-- Two calls through observers, in chains with a layer that passes everything on: a unary call that
fails and a streaming call that is opened. -/
theorem Chain.flattens_and_surrounds_twice :
    let busy : CallError := .rateLimited "busy"
    let call : Unary := fun _ w => (.ready (.error busy), w.record (.note "call"))
    let opening : StreamCall := fun _ w => (.ready (.ok ⟨[], []⟩), w.record (.note "stream"))
    let late := Observer.function (.note "b:enter") fun x => .note ("b:" ++ outcomeName x)
    let unary : Nest := .chain [.layer (Observer.tap "a").layer, .passing "p",
      .chain [.chain [], .layer late.layer]]
    let stream : Nest := .chain [.chain [.layer (Observer.tapStream "a").layer], .passing "p",
      .layer (Observer.tapStream "b").layer]
    (∃ v, ((unary.interceptor.wrapUnary call).deferred (.ofBody "p" ⟨#[]⟩ 0)).Ends
        (fun _ _ => False) .initial (.error busy) v ∧
      v.log = [.note "a:enter", .note "b:enter", .note "call", .note "b:RateLimited",
        .note "a:RateLimited"]) ∧
    ∃ v, ((stream.interceptor.wrapStream opening).deferred ⟨"p", [], [], .standard, 0⟩).Ends
        (fun _ _ => False) .initial (.ok ⟨[], []⟩) v ∧
      v.log = [.note "a:enter", .note "b:enter", .note "stream", .note "b:ok", .note "a:ok"] := by
  intro busy call opening late unary stream
  obtain ⟨hunary, hstream, hcall, hopen⟩ := Chain.flattens_and_surrounds
  rw [hunary, hstream]
  have hfailed := hcall [.tap "a", late] call (.ofBody "p" ⟨#[]⟩ 0) .initial
  have hopened := hopen [.tapStream "a", .tapStream "b"] opening ⟨"p", [], [], .standard, 0⟩
    .initial
  exact ⟨⟨_, (hfailed.ends _ _ _).mpr ⟨_, .done _ _, rfl⟩, rfl⟩,
    ⟨_, (hopened.ends _ _ _).mpr ⟨_, .done _ _, rfl⟩, rfl⟩⟩

end RpcPolicy
