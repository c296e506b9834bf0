import RpcPolicy.Proofs.Client.Making
import RpcPolicy.Rehearsal.Layer
import RpcPolicy.Rehearsal.Script
/-! Unary calls of a client, looked at in any worlds. Main statement: whenever a call is looked at,
its own token and deadline come before its chain. -/

namespace RpcPolicy.Client

variable {c : Client} {request : Request} {chain f g : Future Outcome} {v w : World}

/-- A chain within the bounds of a request. -/
def bounded (request : Request) (chain : Future Outcome) : Future Outcome :=
  (unaryBounds request).limit chain

/-- What a look at a bounded chain comes to: the token of the request is looked at first, then its
deadline, and only then the chain. -/
structure Look (request : Request) (chain : Future Outcome) (w : World) : Prop where
  canceled : w.isCanceled request.token = true →
    bounded request chain w = (.done (.error (.canceled "call canceled")), w)
  expired : w.isCanceled request.token = false → w.isPast request.deadline = true →
    bounded request chain w = (.done (.error (.deadlineExceeded "deadline exceeded")), w)
  /-- A result of the chain is passed on at once and unchanged. -/
  finished : w.isCanceled request.token = false → w.isPast request.deadline = false →
    ∀ x v, chain w = (.done x, v) → bounded request chain w = (.done x, v)
  pending : w.isCanceled request.token = false → w.isPast request.deadline = false →
    ∀ rest v, chain.Leaves w rest v →
      (bounded request chain).Leaves w (bounded request rest) v

theorem look (request : Request) (chain : Future Outcome) (w : World) : Look request chain w where
  canceled hc := Bounds.limit_of_broken (Bounds.broken?_of_canceled hc)
  expired hc hd := Bounds.limit_of_broken (Bounds.broken?_of_past hc hd)
  finished hc hd x v h := by
    have hlive := Bounds.broken?_eq_none (b := unaryBounds request).mpr ⟨hc, hd⟩
    rw [bounded, Bounds.limit_of_unbroken hlive, h, Process.cutOff_done]
  pending hc hd rest v h :=
    h.limit (Bounds.broken?_eq_none (b := unaryBounds request).mpr ⟨hc, hd⟩)

/-- What is left after a look is a result, or what is left of the chain, bounded. -/
theorem poll_bounded (request : Request) (chain : Future Outcome) (w : World) :
    (∃ x, (bounded request chain w).1.poll = .ready x) ∨
      (bounded request chain w).1.poll = bounded request (chain w).1.poll := by
  have hlook := look request chain w
  cases hc : w.isCanceled request.token with
  | true =>
    rw [hlook.canceled hc]
    exact Or.inl ⟨_, rfl⟩
  | false =>
    cases hd : w.isPast request.deadline with
    | true =>
      rw [hlook.expired hc hd]
      exact Or.inl ⟨_, rfl⟩
    | false =>
      rcases Future.gives_or_leaves chain w with ⟨x, hx⟩ | hx
      · rw [hlook.finished hc hd x _ hx]
        exact Or.inl ⟨x, rfl⟩
      · exact Or.inr (hlook.pending hc hd _ _ hx).rest

/-- Whatever is left of a call is a result, or what is left of its chain, bounded. -/
theorem rest_cases (h : Future.Rest (c.unary request) w g) :
    (∃ x, g = .ready x) ∨ ∃ rest,
      Future.Rest (c.called request w).1 (c.called request w).2 rest ∧
        g = bounded request rest := by
  induction h with
  | first =>
    rcases poll_bounded request (c.called request w).1 (c.called request w).2 with hx | hrest
    · exact Or.inl hx
    · exact Or.inr ⟨_, .first, hrest⟩
  | look v _ ih =>
    rcases ih with ⟨x, rfl⟩ | ⟨rest, hrest, rfl⟩
    · exact Or.inl ⟨x, rfl⟩
    · rcases poll_bounded request rest v with hx | hleft
      · exact Or.inl hx
      · exact Or.inr ⟨_, hrest.look v, hleft⟩

/-- A call that is dead when it is made is over at the first look, whatever lies inside. -/
theorem unary_dead {o : DialOptions} (h : ∀ i ∈ o.unary.layers, Composed i) (t t' : Transport)
    (hw : w.isCanceled request.token = true ∨ w.isPast request.deadline = true) :
    (ofTransport t' o).unary request w = (ofTransport t o).unary request w := by
  obtain ⟨hworld, hprompt⟩ := Composed.called h t t' request w
  have hdead : ((unaryBounds request).broken?
      ((ofTransport t o).called request w).2).isSome = true := by
    have hv : ((ofTransport t o).called request w).2.isCanceled request.token = true ∨
        ((ofTransport t o).called request w).2.isPast request.deadline = true :=
      hw.imp (hprompt.canceled _) hprompt.isPast
    refine Option.isSome_iff_ne_none.mpr fun hnone => ?_
    obtain ⟨hc, hd⟩ := Bounds.broken?_eq_none.mp hnone
    rcases hv with hv | hv
    · exact Bool.false_ne_true (hc.symm.trans hv)
    · exact Bool.false_ne_true (hd.symm.trans hv)
  obtain ⟨e, he⟩ := Option.isSome_iff_exists.mp hdead
  have he' := he
  rw [hworld] at he'
  rw [unary_eq, unary_eq, Bounds.limit_of_broken he, Bounds.limit_of_broken he', hworld]

/-- A unary call bounded by its own request: the layers are called first, and each look then comes
to the token of the request, to its deadline, and only then to the chain. -/
structure BoundedCall (t : Transport) (o : DialOptions) (request : Request) (w : World) :
    Prop where
  /-- The call is first looked at in the world that the composed layers leave when called. -/
  first : (ofTransport t o).unary request w =
    bounded request ((ofTransport t o).called request w).1 ((ofTransport t o).called request w).2
  /-- What is canceled or past when the call is made still is after that. -/
  canceled : w.isCanceled request.token = true →
    ((ofTransport t o).called request w).2.isCanceled request.token = true
  past : w.isPast request.deadline = true →
    ((ofTransport t o).called request w).2.isPast request.deadline = true
  /-- What is left of the call is a result, or what is left of its chain, bounded again. -/
  rest : ∀ g, Future.Rest ((ofTransport t o).unary request) w g → (∃ x, g = .ready x) ∨
    ∃ left, Future.Rest ((ofTransport t o).called request w).1
      ((ofTransport t o).called request w).2 left ∧ g = bounded request left
  /-- So every look is a look at a bounded chain. -/
  look : ∀ chain v, Look request chain v
  /-- A call that is dead when it is made ends the same with every transport: it comes to none. -/
  dead : w.isCanceled request.token = true ∨ w.isPast request.deadline = true →
    ∀ t', (ofTransport t' o).unary request w = (ofTransport t o).unary request w
  /-- A later look at a dead call ends it and touches nothing. -/
  untouched : ∀ g, Future.Rest ((ofTransport t o).unary request) w g → ∀ v,
    v.isCanceled request.token = true ∨ v.isPast request.deadline = true →
    ∃ x, g v = (.done x, v)

theorem unary_bounded (t : Transport) (o : DialOptions) (request : Request) (w : World)
    (h : ∀ i ∈ o.unary.layers, Composed i) : BoundedCall t o request w where
  first := rfl
  canceled := (Composed.called h t t request w).2.canceled request.token
  past := (Composed.called h t t request w).2.isPast
  rest _ hg := rest_cases hg
  look := look request
  dead hw t' := unary_dead h t t' hw
  untouched g hg v hv := by
    rcases rest_cases hg with ⟨x, rfl⟩ | ⟨left, -, rfl⟩
    · exact ⟨x, rfl⟩
    · cases hc : v.isCanceled request.token with
      | true => exact ⟨_, (look request left v).canceled hc⟩
      | false =>
        have hd := hv.resolve_left (by rw [hc]; exact Bool.false_ne_true)
        exact ⟨_, (look request left v).expired hc hd⟩

/-- What a connection is opened with for some unary layers, without anything else. -/
def plainOptions (layers : List Interceptor) : DialOptions :=
  ⟨.insecure, .standard, ⟨layers⟩, ⟨[]⟩, .ofSeconds 20 10⟩

theorem composed_cancel : Composed (.ofFunction (Action.cancel.apply 0)) := by
  refine .function _ (fun _ _ _ _ => rfl) fun next request w => ⟨fun token h => ?_, Nat.le_refl _⟩
  have hcanceled : (w.cancel request.token).isCanceled token = true := by
    rw [World.isCanceled_cancel, h, Bool.or_true]
  exact hcanceled

/-- A layer that cancels a live call when it is called: the first look gives way to the signal,
though the chain has its result ready. -/
theorem own_cancellation_first :
    ¬ ∀ (t : Transport) (o : DialOptions) (request : Request) (w : World),
      (∀ i ∈ o.unary.layers, Composed i) →
      w.isCanceled request.token = false → w.isPast request.deadline = false →
      ∀ x v, ((ofTransport t o).called request w).1 ((ofTransport t o).called request w).2 =
          (.done x, v) →
        (ofTransport t o).unary request w = (.done x, v) := by
  intro h
  let request := Request.ofBody "/test.Service/Method" ⟨#[0x61, 0x62]⟩ 0
  let o := plainOptions [.ofFunction (Action.cancel.apply 0)]
  have hlayers : ∀ i ∈ o.unary.layers, Composed i :=
    List.forall_mem_singleton.mpr composed_cancel
  have hresult := h Transport.scripted o request .initial hlayers rfl rfl
    (.ok ⟨[], ⟨#[0x61, 0x62]⟩⟩) _ rfl
  have hcanceled : ((ofTransport Transport.scripted o).unary request .initial).1 =
      .done (.error (.canceled "call canceled")) := rfl
  rw [hresult] at hcanceled
  cases hcanceled

/-- An expired call through every kind of layer. -/
theorem unary_bounded_expired :
    let request := { Request.ofBody "/test.Service/Method" default 0 with deadline := some .start }
    let limiter : Limiter := ⟨0, 1, 1⟩
    let retry : Retry := ⟨.standard, none, .timer, 0⟩
    let o := plainOptions [retry.interceptor, .ofChain ⟨[limiter.interceptor]⟩,
      .header ⟨"x"⟩ (.ofVisible "y"), .ofFunction (Action.cancel.apply 0)]
    let c := ofTransport Transport.scripted o
    (∀ i ∈ o.unary.layers, Composed i) ∧
      c.unary request .initial =
        (.done (.error (.deadlineExceeded "deadline exceeded")),
          (c.called request .initial).2) ∧
      ∀ t', (ofTransport t' o).unary request .initial = c.unary request .initial := by
  intro request limiter retry o c
  have hlayers : ∀ i ∈ o.unary.layers, Composed i := by
    intro i hi
    rcases List.mem_cons.mp hi with rfl | hi
    · exact .retry retry
    rcases List.mem_cons.mp hi with rfl | hi
    · exact .chain _ (List.forall_mem_singleton.mpr (.limiter limiter))
    rcases List.mem_cons.mp hi with rfl | hi
    · exact .header _ _
    rw [List.mem_singleton.mp hi]
    exact composed_cancel
  have h := unary_bounded Transport.scripted o request .initial hlayers
  have hpast : World.initial.isPast request.deadline = true := rfl
  exact ⟨hlayers, h.first.trans ((h.look _ _).expired rfl (h.past hpast)), h.dead (Or.inr hpast)⟩

end RpcPolicy.Client
