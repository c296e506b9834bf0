import RpcPolicy.Proofs.Call.Progress
import RpcPolicy.Proofs.Streaming.Layers
/-! Streaming calls through layers. Main statement: they come to the transport at most once, and
what it opens is handed back with every message in its place. -/

namespace RpcPolicy

/-- Something that layers do on their own, or an act of the environment. -/
def Beside (R env : Environment) : Environment := fun w v => R w v ∨ env w v

/-- The transport gets a streaming request, and its call is looked at any number of times. -/
def Transport.Streams (t : Transport) (env : Environment) (sent : StreamRequest) : Environment :=
  fun w v => ∃ q, (t.stream.deferred sent).Becomes env w q v

/-- Between two worlds the transport gets at most one streaming request, with given options; beside
that there is only what layers do on their own. -/
def Once (R : Environment) (t : Transport) (env : Environment) (options : CallOptions) :
    Environment := fun w v =>
  ∃ sents, Trace (Beside R env) (t.Streams env) sents w v ∧ sents.length ≤ 1 ∧
    ∀ sent ∈ sents, sent.options = options

/-- The transport opened what comes of a streaming call, on a request with given options. -/
def Opened (t : Transport) (env : Environment) (options : CallOptions) (streaming : Streaming) :
    Prop :=
  ∃ sent opened w v, sent.options = options ∧
    (t.stream.deferred sent).Ends env w (.ok opened) v ∧
    streaming.inbound = (Transport.checkInbound options.maxReceive opened).inbound

variable {α : Type} {R env : Environment} {t : Transport} {next : StreamCall}
  {options : CallOptions} {u v w : World}

/-! ### Beside the transport -/

theorem Process.Moves.beside {Act : Type} {does : Act → World → World → Prop} {p q : Process α}
    (hp : p.Moves R) (h : p.Becomes env w q v) : Trace (Beside R env) does [] w v := by
  induction h with
  | same p w => exact .refl w
  | looked act ended _ ih =>
    cases hp with
    | waiting look rest => exact .quiet (Or.inr act) (.quiet (Or.inl (look _)) (ih (rest _)))

theorem Future.Moves.beside {Act : Type} {does : Act → World → World → Prop} {f : Future α}
    {q : Process α} (hf : f.Moves R) (h : f.Becomes env w q v) :
    Trace (Beside R env) does [] w v :=
  .quiet (Or.inl (hf w).1) ((hf w).2.beside h)

namespace Once

theorem of_beside (h : Trace (Beside R env) (t.Streams env) [] w v) : Once R t env options w v :=
  ⟨[], h, Nat.zero_le 1, List.forall_mem_nil _⟩

theorem cons_beside (h : Trace (Beside R env) (t.Streams env) [] w u)
    (h' : Once R t env options u v) : Once R t env options w v := by
  obtain ⟨sents, htrace, hrest⟩ := h'
  exact ⟨sents, h.trans htrace, hrest⟩

theorem concat_beside (h : Once R t env options w u)
    (h' : Trace (Beside R env) (t.Streams env) [] u v) : Once R t env options w v := by
  obtain ⟨sents, htrace, hrest⟩ := h
  have hall := htrace.trans h'
  rw [List.append_nil] at hall
  exact ⟨sents, hall, hrest⟩

end Once

/-! ### Calls -/

/-- A streaming call that leaves the buckets alone, comes to the transport at most once, and hands
back what it opens. -/
structure Direct (R : Environment) (t : Transport) (call : StreamCall) : Prop where
  made : call.Makes R
  moves : (∀ sent, (t.stream.deferred sent).Moves Unmoved) →
    ∀ request, (call.deferred request).Moves Unmoved
  once : ∀ env request w q v, (call.deferred request).Becomes env w q v →
    Once R t env request.options w v
  opened : ∀ env request w streaming v, (call.deferred request).Ends env w (.ok streaming) v →
    Opened t env request.options streaming

namespace Direct

theorem innermost (hR : Quiet R) (t : Transport) : Direct R t t.innermostStream := by
  have hcall : ∀ request, t.innermostStream.deferred request =
      Future.bind (t.stream.deferred request.stamped) fun opened =>
        .ready (opened.map (Transport.checkInbound request.options.maxReceive)) := fun _ => rfl
  refine ⟨fun _ w => hR.refl w, ?moves, ?once, ?opened⟩
  case moves =>
    intro ht request
    rw [hcall]
    exact (ht _).bind flow_unmoved fun _ => .ready flow_unmoved _
  case once =>
    intro env request w q v h
    rw [hcall] at h
    have hsingle : t.Streams env request.stamped w v := by
      rcases Future.becomes_bind.mp h with ⟨p, hp, -, -⟩ | ⟨opened, u, hends, hrest⟩
      · exact ⟨p, hp⟩
      · obtain ⟨-, rfl⟩ := Future.becomes_ready.mp hrest
        exact ⟨_, Process.becomes_done_iff.mpr hends⟩
    exact ⟨[request.stamped], .single hsingle, Nat.le_refl 1, by simp [StreamRequest.stamped]⟩
  case opened =>
    intro env request w streaming v h
    rw [hcall] at h
    obtain ⟨answer, u, hends, hready⟩ := h.of_bind
    obtain ⟨heq, -⟩ := Future.ends_ready hready
    cases answer with
    | error e => cases heq
    | ok opened =>
      cases heq
      exact ⟨request.stamped, opened, w, u, rfl, hends, rfl⟩

/-- A layer that makes the next call at most once keeps to it. -/
theorem conduit (hR : Quiet R) (c : Conduit R) (h : Direct R t next) :
    Direct R t (c.interceptor.wrapStream next) := by
  refine ⟨c.made next h.made, ?moves, ?once, ?opened⟩
  case moves =>
    intro ht request
    rw [c.wraps]
    have hbegins := (c.begins request).mono hR.buckets
    refine hbegins.bind flow_unmoved fun x => ?_
    cases x with
    | error e => exact .ready flow_unmoved _
    | ok sent =>
      exact (h.moves ht sent).bind flow_unmoved fun x => (c.finishes request x).mono hR.buckets
  case once =>
    intro env request w q v hbecomes
    rw [c.wraps] at hbecomes
    rcases Future.becomes_bind.mp hbecomes with ⟨p, hp, -, -⟩ | ⟨x, u, hbefore, hrest⟩
    · exact .of_beside ((c.begins request).beside hp)
    · have hbegun : Trace (Beside R env) (t.Streams env) [] w u :=
        (c.begins request).beside (Process.becomes_done_iff.mpr hbefore)
      cases x with
      | error e =>
        obtain ⟨-, rfl⟩ := Future.becomes_ready.mp hrest
        exact .of_beside hbegun
      | ok sent =>
        -- The options of the call are those that the layer hands on.
        rw [← c.options env request w sent u hbefore]
        refine .cons_beside hbegun ?_
        rcases Future.becomes_bind.mp hrest with ⟨p, hp, -, -⟩ | ⟨y, u', hnext, hafter⟩
        · exact h.once env sent u p v hp
        · have hdone := h.once env sent u _ u' (Process.becomes_done_iff.mpr hnext)
          exact hdone.concat_beside ((c.finishes request y).beside hafter)
  case opened =>
    intro env request w streaming v hends
    rw [c.wraps] at hends
    obtain ⟨x, u, hbefore, hrest⟩ := hends.of_bind
    cases x with
    | error e =>
      obtain ⟨heq, -⟩ := Future.ends_ready hrest
      cases heq
    | ok sent =>
      obtain ⟨y, u', hnext, hafter⟩ := hrest.of_bind
      obtain ⟨opened, rfl, hinbound⟩ := c.hands env request u' y streaming v hafter
      rw [← c.options env request w sent u hbefore, Opened, hinbound]
      exact h.opened env sent u opened u' hnext

theorem chain {is : List Interceptor} (his : ∀ i ∈ is, ∀ {next : StreamCall}, Direct R t next →
    Direct R t (i.wrapStream next)) (h : Direct R t next) :
    Direct R t ((Chain.mk is).wrapStream next) := by
  induction is with
  | nil => exact h
  | cons i is ih =>
    have hrest := ih fun j hj => his j (List.mem_cons_of_mem i hj)
    exact his i (List.mem_cons_self ..) hrest

theorem passing {i : Interceptor} (hR : Quiet R) (hi : Passing R i) (h : Direct R t next) :
    Direct R t (i.wrapStream next) := by
  induction hi generalizing next with
  | unaryOnly only =>
    rw [only.wrapStream]
    exact h
  | conduit c => exact h.conduit hR c
  | chain c _ ih => exact chain (fun i hi => ih i hi) h

end Direct

end RpcPolicy
