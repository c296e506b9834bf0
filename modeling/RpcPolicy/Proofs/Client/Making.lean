import RpcPolicy.Client.Basic
import RpcPolicy.Proofs.Call.Looks
/-! What composed layers do as soon as a call is made through them, before anybody looks at it.
Main statement: it depends on nothing inside, revives no canceled signal and turns back no clock. -/

namespace RpcPolicy

/-- Canceled signals stay canceled, and the clock is not turned back. -/
structure Prompt (w v : World) : Prop where
  canceled : ∀ token, w.isCanceled token = true → v.isCanceled token = true
  clock : w.clock.nanos ≤ v.clock.nanos

/-- Two calls that do the same when they are made, and do it promptly. -/
structure Alike (next other : Unary) : Prop where
  world : ∀ request w, (next request w).2 = (other request w).2
  prompt : ∀ request w, Prompt w (next request w).2

/-- Layers of which chains are made: retries, limiters, headers, nested chains, and functions that
make the next call only in the future that they give. -/
inductive Composed : Interceptor → Prop
  | retry (r : Retry) : Composed r.interceptor
  | limiter (l : Limiter) : Composed l.interceptor
  | header (name : MetadataName) (value : MetadataValue) : Composed (.header name value)
  | chain (c : Chain) (layers : ∀ i ∈ c.layers, Composed i) : Composed (.ofChain c)
  | function (f : (Request → Future Outcome) → Unary)
      (later : ∀ next other request w, (f next request w).2 = (f other request w).2)
      (prompt : ∀ next request w, Prompt w (f next request w).2) : Composed (.ofFunction f)

variable {next other : Unary} {request : Request} {i : Interceptor} {is : List Interceptor}
  {u v w : World}

namespace Prompt

theorem refl (w : World) : Prompt w w := ⟨fun _ h => h, Nat.le_refl _⟩

theorem trans (h : Prompt u v) (h' : Prompt v w) : Prompt u w :=
  ⟨fun token ht => h'.canceled token (h.canceled token ht), Nat.le_trans h.clock h'.clock⟩

/-- Nothing is canceled and no time passes. -/
theorem of_eq (hc : v.canceled = w.canceled) (ht : v.clock = w.clock) : Prompt w v := by
  refine ⟨fun token h => ?_, Nat.le_of_eq (congrArg Instant.nanos ht.symm)⟩
  rw [World.isCanceled, hc]
  exact h

/-- A deadline that has come stays past. -/
theorem isPast (h : Prompt w v) {deadline : Option Instant} (hw : w.isPast deadline = true) :
    v.isPast deadline = true := by
  have hclock := h.clock
  unfold World.isPast Instant.reached at hw ⊢
  cases deadline with
  | none => cases hw
  | some t =>
    simp only [Option.any_some, decide_eq_true_eq] at hw ⊢
    omega

theorem record (w : World) (e : Entry) : Prompt w (w.record e) := of_eq rfl rfl

theorem acquire (w : World) (place : Nat) : Prompt w (w.acquire place).2 := by
  unfold World.acquire
  split
  · exact refl w
  · exact of_eq rfl rfl

theorem cursor (r : Retry) (w : World) : Prompt w (r.cursor w).2 := by
  unfold Retry.cursor
  split
  · exact of_eq rfl rfl
  · exact of_eq rfl rfl

end Prompt

/-! ### Layers -/

namespace Alike

theorem limiter (h : Alike next other) (l : Limiter) :
    Alike (l.wrapUnary next) (l.wrapUnary other) := by
  cases hl : l.isUnlimited with
  | true =>
    rwa [Limiter.wrapUnary_unlimited hl, Limiter.wrapUnary_unlimited hl]
  | false =>
    have htaken : ∀ w, Prompt w (w.acquire l.place).2 := fun w => .acquire w l.place
    refine ⟨fun request w => ?_, fun request w => ?_⟩
    · cases ha : w.acquire l.place with
      | mk admitted v =>
        cases admitted with
        | true =>
          rw [Limiter.wrapUnary_admitted hl ha, Limiter.wrapUnary_admitted hl ha]
          exact h.world request v
        | false => rw [Limiter.wrapUnary_refused hl ha, Limiter.wrapUnary_refused hl ha]
    · have hw := htaken w
      cases ha : w.acquire l.place with
      | mk admitted v =>
        rw [ha] at hw
        cases admitted with
        | true =>
          rw [Limiter.wrapUnary_admitted hl ha]
          exact hw.trans (h.prompt request v)
        | false =>
          rw [Limiter.wrapUnary_refused hl ha]
          exact hw.trans (.record v _)

/-- Retries make nothing but their cursor. -/
theorem retry (next other : Unary) (r : Retry) : Alike (r.wrapUnary next) (r.wrapUnary other) :=
  ⟨fun _ _ => rfl, fun _ w => .cursor r w⟩

theorem layers (his : ∀ i ∈ is, ∀ {next other : Unary}, Alike next other →
      Alike (i.wrapUnary next) (i.wrapUnary other)) (h : Alike next other) :
    Alike ((Chain.mk is).wrapUnary next) ((Chain.mk is).wrapUnary other) := by
  induction is with
  | nil => exact h
  | cons i is ih =>
    have hrest := ih fun j hj => his j (List.mem_cons_of_mem i hj)
    exact his i (List.mem_cons_self ..) hrest

/-- What a layer does when a call is made does not depend on what lies inside. -/
theorem composed (hi : Composed i) (h : Alike next other) :
    Alike (i.wrapUnary next) (i.wrapUnary other) := by
  induction hi generalizing next other with
  | retry r => exact retry next other r
  | limiter l => exact h.limiter l
  | header name value => exact ⟨fun _ w => h.world _ w, fun _ w => h.prompt _ w⟩
  | chain c _ ih => exact layers (fun i hi => ih i hi) h
  | function f later prompt =>
    exact ⟨fun request w => later next.deferred other.deferred request w,
      fun request w => prompt next.deferred request w⟩

/-- Whatever the transport, its calls do nothing before they are looked at. -/
theorem innermost (t t' : Transport) : Alike t.innermostUnary t'.innermostUnary :=
  ⟨fun _ _ => rfl, fun _ w => .refl w⟩

end Alike

/-! ### Calls of a client -/

/-- What a client has in hand once a call is made and nobody has looked at it: the future of its
chain, and the world that making the call left. -/
def Client.called (c : Client) (request : Request) (w : World) : Future Outcome × World :=
  c.wrappedUnary { request with options := c.options }
    (w.record (callSpan request.procedure "unary"))

theorem Client.unary_eq (c : Client) (request : Request) (w : World) :
    c.unary request w =
      (unaryBounds request).limit (c.called request w).1 (c.called request w).2 := rfl

/-- Making a call through composed layers is prompt, and the same for every transport. -/
theorem Composed.called {o : DialOptions} (h : ∀ i ∈ o.unary.layers, Composed i)
    (t t' : Transport) (request : Request) (w : World) :
    ((Client.ofTransport t o).called request w).2 =
        ((Client.ofTransport t' o).called request w).2 ∧
      Prompt w ((Client.ofTransport t o).called request w).2 := by
  have halike : Alike (o.unary.wrapUnary t.innermostUnary)
      (o.unary.wrapUnary t'.innermostUnary) :=
    Alike.layers (fun i hi _ _ hn => hn.composed (h i hi)) (.innermost t t')
  exact ⟨halike.world _ _, (Prompt.record w _).trans (halike.prompt _ _)⟩

end RpcPolicy
