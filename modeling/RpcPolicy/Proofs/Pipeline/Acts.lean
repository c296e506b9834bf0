import RpcPolicy.Client.Policies
import RpcPolicy.Proofs.Call.Clock
import RpcPolicy.Proofs.TokenBucket.Sound
import RpcPolicy.Rehearsal.Script
/-! What a unary call through composed layers does, act by act. Main statement: every act leaves
the world such that the next one can follow. -/

namespace RpcPolicy

namespace Pipeline

/-- The transport may be sent the body of a request. -/
def Fits (request : Request) : Prop :=
  request.body.size ≤ request.options.maxSend.toNat

/-- A request as the transport receives it. -/
def stamped (request : Request) : Request :=
  { request with metadata := stampEncoding request.metadata request.options }

/-- A note was left, and beside that time passed. -/
def Noted (text : String) (w v : World) : Prop :=
  ∃ u, Passes w u ∧ Passes (u.record (.note text)) v

/-- What a call through composed layers does. -/
inductive Act where
  /-- A token was taken for an attempt. -/
  | admitted
  /-- There was less than a token for an attempt. -/
  | refused
  /-- A layer of the caller left its note; it may have waited before and after that. -/
  | note (text : String)
  /-- The transport was called once, and the attempt ended there; layers may have waited then. -/
  | transport (outcome : Outcome)
  /-- A backoff sleep was asked for and went by. -/
  | sleep (delay : Duration)

/-- An act takes one world to another. That of a backoff is one whole run of the sleep. -/
def Does (token : Token) (limiter : Option Limiter) : Act → World → World → Prop
  | .admitted => fun w v => ∃ l, limiter = some l ∧ w.acquire l.place = (true, v)
  | .refused => fun w v => ∃ l tokens, limiter = some l ∧ w.acquire l.place = (false, v) ∧
      (w.available l.place).1 = some tokens ∧ tokens.lt 1 = true
  | .note text => Noted text
  | .transport outcome => fun w v => ∃ request answer u, Fits request ∧
      (Transport.scripted.unary.deferred (stamped request)).Ends (Calm token) w answer u ∧
      outcome = answer.bind (Transport.checkResponse request.options.maxReceive) ∧ Passes u v
  | .sleep delay => fun w v => (Sleep.timer.begun delay).Ends (Calm token) w () v

/-- What goes on beside the acts, while the clock stands still: an observer is told of something,
and sources of seeds move on. -/
inductive Silent : World → World → Prop
  | told (w : World) (level : Level) (message : String) (fields : List (String × String)) :
      Silent w (w.record (.event level message fields))
  | seeded (w : World) (counters : List Nat) (entropy : UInt64) :
      Silent w { w with counters := counters, entropy := entropy }

/-- Some acts of a call, in order. -/
abbrev History (token : Token) (limiter : Option Limiter) : List Act → World → World → Prop :=
  Trace Silent (Does token limiter)

/-- Nobody cancels a call, not even the script, and its limiter limits and has a sound bucket. -/
structure Steady (token : Token) (limiter : Option Limiter) (w : World) : Prop where
  uncanceled : w.isCanceled token = false
  script : ∀ reply ∈ w.unaryScript, reply.cancels = false
  limits : ∀ l, limiter = some l → l.isUnlimited = false
  bucket : ∀ l, limiter = some l → ∃ b, w.buckets[l.place]? = some b ∧ b.Sound

variable {token : Token} {limiter : Option Limiter} {l : Limiter} {request : Request}
  {v w : World} {b : TokenBucket} {S : World → Prop}

theorem Steady.of_eq (h : Steady token limiter w) (hc : v.canceled = w.canceled)
    (hs : v.unaryScript = w.unaryScript) (hb : v.buckets = w.buckets) :
    Steady token limiter v := by
  refine ⟨?_, ?_, h.limits, ?_⟩
  · rw [World.isCanceled, hc]
    exact h.uncanceled
  · rw [hs]
    exact h.script
  · rw [hb]
    exact h.bucket

theorem Steady.passes (h : Steady token limiter w) (hv : Passes w v) : Steady token limiter v := by
  obtain ⟨t, -, rfl⟩ := hv
  exact h.of_eq rfl rfl rfl

theorem Steady.silent (h : Steady token limiter w) (hv : Silent w v) : Steady token limiter v := by
  cases hv with
  | told => exact h.of_eq rfl rfl rfl
  | seeded => exact h.of_eq rfl rfl rfl

/-! ### Tokens -/

theorem acquire_eq (hb : w.buckets[l.place]? = some b) :
    w.acquire l.place = ((b.tryAcquire w.clock).1,
      { w with buckets := w.buckets.set l.place (b.tryAcquire w.clock).2 }) := by
  simp only [World.acquire, hb]

theorem Steady.acquire {admitted : Bool} (h : Steady token limiter w) (hl : limiter = some l)
    (hv : w.acquire l.place = (admitted, v)) : Steady token limiter v := by
  obtain ⟨b, hb, hsound⟩ := h.bucket l hl
  rw [acquire_eq hb] at hv
  obtain ⟨-, rfl⟩ := Prod.mk.inj hv
  refine ⟨h.uncanceled, h.script, h.limits, ?_⟩
  intro l' hl'
  obtain rfl : l = l' := Option.some.inj (hl.symm.trans hl')
  refine ⟨(b.tryAcquire w.clock).2, ?_, hsound.tryAcquire w.clock⟩
  have hlt : l.place < w.buckets.length := by
    rw [List.getElem?_eq_some_iff] at hb
    exact hb.1
  exact List.getElem?_set_self hlt

/-! ### The transport -/

/-- The transport takes a call: it is written down and the next answer is taken. -/
def taken (request : Request) (w : World) : Reply UnaryAnswer × World :=
  ({ w with calls := w.calls + 1 }.record (.call (w.calls + 1) w.clock request)).nextUnary

theorem deferred_scripted (request : Request) (w : World) :
    Transport.scripted.unary.deferred request w =
      (taken request w).1.future
        (fun answer => (⟨answer.metadata, answer.body.getD request.body⟩ : Response))
        ((taken request w).1.act request.token (taken request w).2) := rfl

theorem nextUnary_steady (h : Steady token limiter w) :
    w.nextUnary.1.cancels = false ∧ Steady token limiter w.nextUnary.2 := by
  unfold World.nextUnary
  cases hs : w.unaryScript with
  | nil => exact ⟨rfl, h⟩
  | cons reply rest =>
    have hall := h.script
    rw [hs] at hall
    refine ⟨hall reply (List.mem_cons_self ..), h.uncanceled, ?_, h.limits, h.bucket⟩
    intro other hother
    exact hall other (List.mem_cons_of_mem _ hother)

/-- An answer of the script cancels nothing. -/
theorem taken_steady (h : Steady token limiter w) :
    Steady token limiter ((taken request w).1.act request.token (taken request w).2) := by
  have hcall : Steady token limiter
      ({ w with calls := w.calls + 1 }.record (.call (w.calls + 1) w.clock request)) :=
    h.of_eq rfl rfl rfl
  obtain ⟨hkeeps, hsteady⟩ := nextUnary_steady hcall
  have hact : (taken request w).1.act request.token (taken request w).2 = (taken request w).2 := by
    rw [Reply.act, taken, hkeeps, if_neg Bool.false_ne_true]
  rw [hact]
  exact hsteady

variable {α β : Type} {reply : Reply α} {answer : α → β}

theorem future_of_delay {delay : Duration} (hd : reply.delay = some delay) :
    reply.future answer w = Future.bind (.sleepUntil (w.clock.after delay))
      (fun _ => .ready (reply.outcome.map answer)) w := by
  rw [Reply.future, hd]

theorem future_of_no_delay (hd : reply.delay = none) :
    reply.future answer = .ready (reply.outcome.map answer) := by
  rw [Reply.future, hd]

theorem future_ends {x : Except CallError β} (h : (reply.future answer).Ends (Calm token) w x v) :
    v = w ∨ Calm token w v := by
  cases hd : reply.delay with
  | none =>
    rw [future_of_no_delay hd] at h
    exact Or.inl (Future.ends_ready h).2
  | some delay =>
    obtain ⟨⟨⟩, u, hsleep, hrest⟩ := Future.Ends.of_bind (h.of_eq (future_of_delay hd))
    rw [(Future.ends_ready hrest).2]
    exact sleepUntil_ends hsleep

theorem Steady.scripted {x : Outcome} (h : Steady token limiter w)
    (hv : (Transport.scripted.unary.deferred request).Ends (Calm token) w x v) :
    Steady token limiter v := by
  rcases future_ends (hv.of_eq (deferred_scripted request w)) with rfl | hcalm
  · exact taken_steady h
  · exact (taken_steady h).passes hcalm.1

/-- Nothing but the clock moves in a backoff. -/
theorem passes_of_slept {delay : Duration} (h : Does token limiter (.sleep delay) w v) :
    Passes w v := by
  rcases Sleep.timer_ends h with rfl | hcalm
  · exact .refl v
  · exact hcalm.1

/-! ### All acts -/

theorem Steady.does {a : Act} (h : Steady token limiter w) (hv : Does token limiter a w v) :
    Steady token limiter v := by
  cases a with
  | admitted =>
    obtain ⟨l, hl, hacquire⟩ := hv
    exact h.acquire hl hacquire
  | refused =>
    obtain ⟨l, tokens, hl, hacquire, -⟩ := hv
    exact h.acquire hl hacquire
  | note text =>
    obtain ⟨u, hbefore, hafter⟩ := hv
    have hnoted : Steady token limiter (u.record (.note text)) :=
      (h.passes hbefore).of_eq rfl rfl rfl
    exact hnoted.passes hafter
  | transport outcome =>
    obtain ⟨request, answer, u, -, hends, -, hafter⟩ := hv
    exact (h.scripted hends).passes hafter
  | sleep delay => exact h.passes (passes_of_slept hv)

theorem Steady.history {acts : List Act} (h : Steady token limiter w)
    (hv : History token limiter acts w v) : Steady token limiter v :=
  hv.keeps (fun _ _ step hu => hu.silent step) (fun _ _ _ step hu => hu.does step) h

/-! ### The journal -/

end Pipeline

end RpcPolicy
