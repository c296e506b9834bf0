import RpcPolicy.Proofs.Call.Standstill
import RpcPolicy.Proofs.Pipeline.Attempt
/-! Attempts whose layers may edit what is sent. Main statement: an attempt is turned away by its
limiter, is too large to be sent, or is one exchange with the transport. -/

namespace RpcPolicy

/-- Work that has no more to do than to give its result does not show. -/
theorem Process.bind_ready {α : Type} (p : Process α) (w : World) :
    p.bind Future.ready w = (p, w) := by
  induction p using Process.induct generalizing w with
  | done a => rw [bind_done, Future.ready]
  | waiting on resume ih =>
    rw [bind_waiting]
    simp only [ih]
  | stuck => rw [bind_stuck]

theorem Future.bind_ready {α : Type} (f : Future α) : Future.bind f Future.ready = f := by
  funext w
  exact (f w).1.bind_ready (f w).2

namespace Limits

open Pipeline (stamped Fits)

/-- Making a call does not cancel a signal. -/
def Spares (token : Token) (next : Unary) : Prop :=
  ∀ request w, w.isCanceled token = false → (next request w).2.isCanceled token = false

/-- A request with another metadata and another body. -/
def edited (request : Request) (part : Metadata × Body) : Request :=
  { request with metadata := part.1, body := part.2 }

/-- A layer that may change the metadata and the body of a request, makes the next call once and
passes on what it ends in. It may act and wait before and after that, but cancels nothing. -/
structure Editor (token : Token) where
  interceptor : Interceptor
  before : Request → Future (Metadata × Body)
  after : Request → Outcome → Future Unit
  wraps : ∀ next request, (interceptor.wrapUnary next).deferred request =
    Future.bind (before request) fun part =>
      Future.bind (next.deferred (edited request part)) fun x =>
        Future.bind (after (edited request part) x) fun _ => .ready x
  made : ∀ next, Spares token next → Spares token (interceptor.wrapUnary next)
  begins : ∀ request w, w.isCanceled token = false →
    (before request).Leads (Uncanceled token) w (fun _ v => v.isCanceled token = false)
      fun _ => False
  finishes : ∀ request x w, w.isCanceled token = false →
    (after request x).Leads (Uncanceled token) w (fun _ v => v.isCanceled token = false)
      fun _ => False

namespace Editor

/-- The layer that replaces the metadata and the body at once. -/
def rewrite (token : Token) (f : Request → Metadata × Body) : Editor token where
  interceptor := .ofFunction fun next request w => (next (edited request (f request)), w)
  before request := .ready (f request)
  after _ _ := .ready ()
  wraps next request := (Future.bind_ready (next.deferred (edited request (f request)))).symm
  made _ _ _ _ hw := hw
  begins _ _ hw := .ready hw
  finishes _ _ _ hw := .ready hw

/-- The header layer, which makes the next call as soon as its own is made. -/
def header (token : Token) (name : MetadataName) (value : MetadataValue) : Editor token where
  interceptor := .header name value
  before request := .ready (request.metadata.insert name value, request.body)
  after _ _ := .ready ()
  wraps next request := (Future.bind_ready (next.deferred
    (edited request (request.metadata.insert name value, request.body)))).symm
  made _ hnext _ _ hw := hnext _ _ hw
  begins _ _ hw := .ready hw
  finishes _ _ _ hw := .ready hw

end Editor

variable {token : Token} {limiter : Option Limiter} {t : Transport} {es : List (Editor token)}
  {request : Request} {v w : World}

/-- Some layers as a caller gives them. -/
def editors (es : List (Editor token)) : List Interceptor :=
  es.map Editor.interceptor

/-- What passes through some layers to the call inside them and back; it ends in `x`. -/
def Passes (inside : Request → Environment) (x : Outcome) :
    List (Editor token) → Request → Environment
  | [], request => inside request
  | e :: es, request => fun w v => ∃ part u u',
      (e.before request).Ends (Uncanceled token) w part u ∧
      Passes inside x es (edited request part) u u' ∧
      (e.after (edited request part) x).Ends (Uncanceled token) u' () v

/-- What passes through some layers to the call inside them, and stays there. -/
def Enters (inside : Request → Environment) : List (Editor token) → Request → Environment
  | [], request => inside request
  | e :: es, request => fun w v => ∃ part u,
      (e.before request).Ends (Uncanceled token) w part u ∧
      Enters inside es (edited request part) u v

/-- One attempt of a call. -/
inductive Attempt where
  /-- The limiter had no token. -/
  | refused (error : CallError)
  /-- What came out of the layers was larger than may be sent. -/
  | oversized (sent : Request)
  /-- What came out of the layers went to the transport once, and came to an answer. -/
  | exchanged (sent : Request) (answer : Outcome)

namespace Attempt

/-- What an attempt ends in. -/
def outcome : Attempt → Outcome
  | refused e => .error e
  | oversized sent => .error (.messageTooLarge sent.body.size sent.options.maxSend.toNat)
  | exchanged sent answer => answer.bind (Transport.checkResponse sent.options.maxReceive)

end Attempt

/-- A limiter lets an attempt pass. -/
def Admits (limiter : Option Limiter) (w v : World) : Prop :=
  match limiter with
  | none => v = w
  | some l => w.acquire l.place = (true, v)

/-- An attempt takes one world to another. Only an exchange has a call of the transport in it. -/
def Happens (t : Transport) (limiter : Option Limiter) (es : List (Editor token))
    (request : Request) : Attempt → Environment
  | .refused e => fun w v => ∃ l u, limiter = some l ∧ e = l.rejection ∧
      w.acquire l.place = (false, u) ∧ v = u.record (l.rejectionEvent request.procedure)
  | .oversized sent => fun w v => ¬ Fits sent ∧ ∃ u, Admits limiter w u ∧
      Passes (fun r u u' => r = sent ∧ u' = u) (Attempt.oversized sent).outcome es request u v
  | .exchanged sent answer => fun w v => Fits sent ∧ ∃ u, Admits limiter w u ∧
      Passes (fun r u u' => r = sent ∧
        (t.unary.deferred (stamped sent)).Ends (Uncanceled token) u answer u')
        (Attempt.exchanged sent answer).outcome es request u v

/-- An attempt stays with the transport for good. -/
def Hangs (t : Transport) (limiter : Option Limiter) (es : List (Editor token)) (request : Request)
    (sent : Request) (w v : World) : Prop :=
  Fits sent ∧ ∃ u, Admits limiter w u ∧
    Enters (fun r u u' => r = sent ∧
      (t.unary.deferred (stamped sent)).Halts (Uncanceled token) u u') es request u v

/-- The calls of a transport cancel nothing. -/
def Mild (token : Token) (t : Transport) : Prop :=
  ∀ request w x v, w.isCanceled token = false →
    (t.unary.deferred request).Ends (Uncanceled token) w x v → v.isCanceled token = false

/-! ### The innermost call -/

theorem deferred_oversized (hf : ¬ Fits request) :
    t.innermostUnary.deferred request =
      .ready (.error (.messageTooLarge request.body.size request.options.maxSend.toNat)) := by
  have hsize : request.options.maxSend.toNat < request.body.size := Nat.lt_of_not_le hf
  funext w
  simp only [Unary.deferred, Transport.innermostUnary, checkSize, hsize, if_true]
  rfl

theorem deferred_fits (hf : Fits request) :
    t.innermostUnary.deferred request =
      Future.bind (t.unary.deferred (stamped request)) fun answer =>
        .ready (answer.bind (Transport.checkResponse request.options.maxReceive)) := by
  have hsize := checkSize_eq_ok_iff.mpr hf
  funext w
  simp only [Unary.deferred, Transport.innermostUnary, hsize]
  rfl

/-- What the innermost call does with a request. -/
def Innermost (t : Transport) (token : Token) (sent : Request) (x : Outcome) (w v : World) : Prop :=
  (¬ Fits sent ∧ v = w ∧ x = (Attempt.oversized sent).outcome) ∨
    Fits sent ∧ ∃ answer, x = (Attempt.exchanged sent answer).outcome ∧
      (t.unary.deferred (stamped sent)).Ends (Uncanceled token) w answer v

theorem innermost_leads (ht : Mild token t) (hw : w.isCanceled token = false) :
    (t.innermostUnary.deferred request).Leads (Uncanceled token) w
      (fun x v => v.isCanceled token = false ∧ Innermost t token request x w v)
      fun v => Fits request ∧
        (t.unary.deferred (stamped request)).Halts (Uncanceled token) w v := by
  by_cases hf : Fits request
  · rw [deferred_fits hf]
    have hcall : (t.unary.deferred (stamped request)).Leads (Uncanceled token) w
        (fun _ v => v.isCanceled token = false) fun _ => True :=
      ⟨fun x v hends => ht _ w x v hw hends, fun _ _ => trivial⟩
    have hanswer := hcall.and_runs.bind
      (k := fun answer => Future.ready (answer.bind
        (Transport.checkResponse request.options.maxReceive)))
      (R := fun x v => v.isCanceled token = false ∧ Innermost t token request x w v)
      fun answer v hv => .ready ⟨hv.1, Or.inr ⟨hf, answer, rfl, hv.2⟩⟩
    exact hanswer.mono (fun _ _ hx => hx) fun v hv => ⟨hf, hv.2⟩
  · rw [deferred_oversized hf]
    exact .ready ⟨hw, Or.inl ⟨hf, rfl, rfl⟩⟩

/-! ### The layers -/

section Layers

variable {inside : Request → Environment} {x : Outcome}

/-- Layers that only edit pass the options on. -/
theorem Passes.core (h : Passes inside x es request w v) :
    ∃ sent u u', inside sent u u' ∧ sent.options = request.options ∧
      ∀ other : Request → Environment, other sent u u' → Passes other x es request w v := by
  induction es generalizing request w v with
  | nil => exact ⟨request, w, v, h, rfl, fun _ ho => ho⟩
  | cons e es ih =>
    obtain ⟨part, u, u', hbefore, hpasses, hafter⟩ := h
    obtain ⟨sent, s, s', hinside, hoptions, hother⟩ := ih hpasses
    exact ⟨sent, s, s', hinside, hoptions,
      fun other ho => ⟨part, u, u', hbefore, hother other ho, hafter⟩⟩

theorem Enters.core (h : Enters inside es request w v) :
    ∃ sent u, inside sent u v ∧
      ∀ other : Request → Environment, other sent u v → Enters other es request w v := by
  induction es generalizing request w with
  | nil => exact ⟨request, w, h, fun _ ho => ho⟩
  | cons e es ih =>
    obtain ⟨part, u, hbefore, henters⟩ := h
    obtain ⟨sent, s, hinside, hother⟩ := ih henters
    exact ⟨sent, s, hinside, fun other ho => ⟨part, u, hbefore, hother other ho⟩⟩

end Layers

/-- What the call inside does, passes through the layers. -/
theorem editors_lead {next : Unary} {I : Request → Outcome → World → World → Prop}
    {J : Request → World → World → Prop}
    (hnext : ∀ sent u, u.isCanceled token = false → (next.deferred sent).Leads (Uncanceled token) u
      (fun x v => v.isCanceled token = false ∧ I sent x u v) (J sent u))
    (es : List (Editor token)) (request : Request) (hw : w.isCanceled token = false) :
    (((Chain.mk (editors es)).wrapUnary next).deferred request).Leads (Uncanceled token) w
      (fun x v => v.isCanceled token = false ∧ Passes (fun sent => I sent x) x es request w v)
      (Enters J es request w) := by
  induction es generalizing request w with
  | nil => exact hnext request w hw
  | cons e es ih =>
    have hlayer := e.wraps ((Chain.mk (editors es)).wrapUnary next) request
    refine Future.Leads.of_eq ?_ (congrFun hlayer w)
    have hbefore := (e.begins request w hw).and_runs
    refine (hbefore.mono (fun _ _ h => h) fun _ h => h.1.elim).bind ?_
    rintro part u ⟨hu, hpart⟩
    have hinner := ih (edited request part) hu
    refine (hinner.mono (fun _ _ h => h) fun v hv => ⟨part, u, hpart, hv⟩).bind ?_
    rintro x u' ⟨hu', hpasses⟩
    have hafter := (e.finishes (edited request part) x u' hu').and_runs
    refine (hafter.mono (fun _ _ h => h) fun _ h => h.1.elim).bind ?_
    rintro _ v ⟨hv, hback⟩
    exact .ready ⟨hv, part, u, u', hpart, hpasses, hback⟩

/-! ### The limiter -/

/-- An attempt: what the retries make again. -/
def attempt (t : Transport) (limiter : Option Limiter) (es : List (Editor token)) : Unary :=
  (Chain.mk ((limiter.map Limiter.interceptor).toList ++ editors es)).wrapUnary t.innermostUnary

theorem isCanceled_acquire (w : World) (place : Nat) (token : Token) :
    (w.acquire place).2.isCanceled token = w.isCanceled token := by
  unfold World.acquire
  split <;> rfl

/-- What passed a limiter and the layers is too large, or is exchanged. -/
theorem happens_of_passes {x : Outcome} {u : World} (hu : Admits limiter w u)
    (h : Passes (fun sent => Innermost t token sent x) x es request u v) :
    ∃ a, x = a.outcome ∧ Happens t limiter es request a w v := by
  obtain ⟨sent, s, s', hinner, -, hother⟩ := h.core
  rcases hinner with ⟨hf, hs, rfl⟩ | ⟨hf, answer, rfl, hends⟩
  · exact ⟨.oversized sent, rfl, hf, u, hu, hother _ ⟨rfl, hs⟩⟩
  · exact ⟨.exchanged sent answer, rfl, hf, u, hu, hother _ ⟨rfl, hends⟩⟩

theorem hangs_of_enters {u : World} (hu : Admits limiter w u)
    (h : Enters (fun sent s s' => Fits sent ∧
      (t.unary.deferred (stamped sent)).Halts (Uncanceled token) s s') es request u v) :
    ∃ sent, Hangs t limiter es request sent w v := by
  obtain ⟨sent, s, ⟨hf, hhalts⟩, hother⟩ := h.core
  exact ⟨sent, hf, u, hu, hother _ ⟨rfl, hhalts⟩⟩

theorem attempt_leads (hl : ∀ l, limiter = some l → l.isUnlimited = false) (ht : Mild token t)
    (es : List (Editor token)) (request : Request) (hw : w.isCanceled token = false) :
    ((attempt t limiter es).deferred request).Leads (Uncanceled token) w
      (fun x v => v.isCanceled token = false ∧
        ∃ a, x = a.outcome ∧ Happens t limiter es request a w v)
      fun v => ∃ sent, Hangs t limiter es request sent w v := by
  have hlayers : ∀ u, u.isCanceled token = false → Admits limiter w u →
      (((Chain.mk (editors es)).wrapUnary t.innermostUnary).deferred request).Leads
        (Uncanceled token) u
        (fun x v => v.isCanceled token = false ∧
          ∃ a, x = a.outcome ∧ Happens t limiter es request a w v)
        fun v => ∃ sent, Hangs t limiter es request sent w v := by
    intro u hu hadmits
    refine (editors_lead (fun sent s hs => innermost_leads ht hs) es request hu).mono ?_ ?_
    · rintro x v ⟨hv, hpasses⟩
      exact ⟨hv, happens_of_passes hadmits hpasses⟩
    · intro v hv
      exact hangs_of_enters hadmits hv
  cases limiter with
  | none => exact hlayers w hw rfl
  | some l =>
    have hlimited := hl l rfl
    have hkept := isCanceled_acquire w l.place token
    cases ha : w.acquire l.place with
    | mk admitted u =>
      rw [ha] at hkept
      have hu : u.isCanceled token = false := hkept.trans hw
      cases admitted with
      | true =>
        exact (hlayers u hu ha).of_eq (Pipeline.deferred_admitted hlimited ha)
      | false =>
        refine Future.Leads.of_eq ?_ (Pipeline.deferred_refused hlimited ha)
        exact .ready ⟨hu, .refused l.rejection, rfl, l, u, rfl, rfl, ha, rfl⟩

/-! ### What attempts have to keep to -/

namespace Attempt

/-- What is sent has the given options and is not larger than they allow; only a limiter turns
attempts away. -/
def Within (o : CallOptions) : Attempt → Prop
  | refused e => e.isRateLimited = true
  | oversized sent => sent.options = o ∧ o.maxSend.toNat < sent.body.size
  | exchanged sent _ => sent.options = o ∧ sent.body.size ≤ o.maxSend.toNat

end Attempt

theorem Happens.within {a : Attempt} (h : Happens t limiter es request a w v) :
    a.Within request.options := by
  cases a with
  | refused e =>
    obtain ⟨l, -, -, rfl, -⟩ := h
    rfl
  | oversized sent =>
    obtain ⟨hf, u, -, hpasses⟩ := h
    obtain ⟨r, s, s', ⟨rfl, -⟩, hoptions, -⟩ := hpasses.core
    exact ⟨hoptions, hoptions ▸ Nat.lt_of_not_le hf⟩
  | exchanged sent answer =>
    obtain ⟨hf, u, -, hpasses⟩ := h
    obtain ⟨r, s, s', ⟨rfl, -⟩, hoptions, -⟩ := hpasses.core
    exact ⟨hoptions, hoptions ▸ hf⟩

end Limits

end RpcPolicy
