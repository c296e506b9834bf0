import RpcPolicy.Proofs.Call.Looks
import RpcPolicy.Proofs.Retry.Loop
/-! The stages of a retried call that may be canceled or expire at any time. Main statement: no
attempt begins once its request is dead, and a backoff gives way to both bounds. -/

namespace RpcPolicy.Retry

/-- A request that is neither canceled nor past its deadline. -/
def Live (request : Request) (w : World) : Prop :=
  w.isCanceled request.token = false ∧ w.isPast request.deadline = false

/-- A backoff in progress, with what is left of its sleep and the attempts that may follow. -/
def backoff (request : Request) (nap : Future Unit) (again : Future Outcome) : Future Outcome :=
  Future.bind ((backoffBounds request).limit (Future.bind nap fun _ => .ready (.ok ())))
    (afterPause again)

/-- What may be left of a retried call that was looked at: what is left of an attempt that began
while the request was live, a backoff with what is left of its sleep, or a result. -/
inductive Stage (next : Unary) (sleep : Sleep) (request : Request) : Future Outcome → Prop
  | attempt {w : World} {q : Future Outcome} (live : Live request w)
      (rest : Future.Rest (next.deferred request) w q) (follow made : Nat) (cursor : Cursor) :
      Stage next sleep request (Future.bind q (afterAttempt sleep request made cursor
        (attempts next sleep request follow made)))
  | backoff {w : World} {delay : Duration} {nap : Future Unit}
      (rest : Future.Rest (sleep.begun delay) w nap) (follow made : Nat) (cursor : Cursor) :
      Stage next sleep request
        (backoff request nap (attempts next sleep request follow made cursor))
  | result (x : Outcome) : Stage next sleep request (.ready x)
  | unfollowed : Stage next sleep request .never

variable {next other : Unary} {sleep : Sleep} {request : Request} {follow made : Nat}
  {cursor : Cursor} {again : Future Outcome} {nap : Future Unit} {e : CallError} {w : World}

/-- Both bounds of a request say the same about it. -/
theorem live_iff : Live request w ↔ (attemptBounds request).broken? w = none :=
  (Bounds.broken?_eq_none (b := attemptBounds request)).symm

theorem live_iff_backoff : Live request w ↔ (backoffBounds request).broken? w = none :=
  (Bounds.broken?_eq_none (b := backoffBounds request)).symm

/-! ### Attempts -/

/-- The attempts depend on the next call only where the request is live. -/
theorem attempts_congr (h : ∀ w, Live request w → other request w = next request w) :
    attempts other sleep request follow made cursor =
      attempts next sleep request follow made cursor := by
  induction follow generalizing made cursor with
  | zero => rfl
  | succ follow ih =>
    funext w
    cases hb : (attemptBounds request).broken? w with
    | some e => rw [attempts_of_dead hb, attempts_of_dead hb]
    | none =>
      have hagain : attempts other sleep request follow (countAttempt made) =
          attempts next sleep request follow (countAttempt made) := funext fun _ => ih
      rw [attempts_of_live hb, attempts_of_live hb, hagain]
      unfold Future.bind Unary.deferred
      rw [h w (live_iff.mpr hb)]

/-! ### Backoffs -/

theorem backoff_of_broken (h : (backoffBounds request).broken? w = some e) :
    backoff request nap again w = (.done (.error e), w) := by
  unfold backoff Future.bind
  rw [Bounds.limit_of_broken h]
  rfl

theorem backoff_of_slept {v : World} (h : Live request w) (hn : nap w = (.done (), v)) :
    backoff request nap again w = again v := by
  have hb := live_iff_backoff.mp h
  have hnap : Future.bind nap (fun _ => .ready (.ok ())) w =
      (.done (Except.ok () : Except CallError Unit), v) := Future.bind_of_gives hn _
  unfold backoff
  rw [Future.bind_of_gives (a := .ok ()) (v := v)]
  · rfl
  · rw [Bounds.limit_of_unbroken hb, hnap, Process.cutOff_done]

/-- A backoff whose sleep goes on is left with the rest of the sleep. -/
theorem backoff_of_sleeping {rest : Future Unit} {v : World} (h : Live request w)
    (hn : nap.Leaves w rest v) :
    (backoff request nap again).Leaves w (backoff request rest again) v :=
  ((hn.bind _).limit (live_iff_backoff.mp h)).bind _

/-- After a rejection with a retry left, the sleep is asked for and the backoff looked at. -/
theorem afterAttempt_eq_backoff {again : Cursor → Future Outcome} (h : e.isRateLimited = true)
    (hd : cursor.step.1.done = false) :
    afterAttempt sleep request made cursor again (.error e) w =
      let u := w.record (backoffEvent request e made cursor.step.1.delay)
      backoff request (sleep cursor.step.1.delay u).1 (again cursor.step.2)
        (sleep cursor.step.1.delay u).2 := by
  rw [afterAttempt_of_retry h hd]
  rfl

/-! ### Stages -/

/-- A look at a backoff comes to a stage, if a look at what follows it does. -/
theorem backoff_stage {v : World} {delay : Duration}
    (h : ∀ w, Stage next sleep request (attempts next sleep request follow made cursor w).1.poll)
    (hrest : Future.Rest (sleep.begun delay) v (nap w).1.poll) :
    Stage next sleep request
      (backoff request nap (attempts next sleep request follow made cursor) w).1.poll := by
  cases hb : (backoffBounds request).broken? w with
  | some e =>
    rw [backoff_of_broken hb]
    exact .result _
  | none =>
    have hlive : Live request w := live_iff_backoff.mpr hb
    rcases Future.gives_or_leaves nap w with ⟨⟨⟩, hn⟩ | hn
    · rw [backoff_of_slept hlive hn]
      exact h _
    · rw [(backoff_of_sleeping hlive hn).rest]
      exact .backoff hrest follow made cursor

theorem afterAttempt_stage {x : Outcome}
    (h : ∀ cursor w,
      Stage next sleep request (attempts next sleep request follow made cursor w).1.poll) :
    Stage next sleep request (afterAttempt sleep request made cursor
      (attempts next sleep request follow made) x w).1.poll := by
  cases hr : isRejection x with
  | false =>
    rw [afterAttempt_of_passed hr]
    exact .result x
  | true =>
    obtain ⟨e, rfl⟩ : ∃ e, x = .error e := by
      cases x with
      | ok response => cases hr
      | error e => exact ⟨e, rfl⟩
    cases hd : cursor.step.1.done with
    | true =>
      rw [afterAttempt_of_done hr hd]
      exact .result _
    | false =>
      rw [afterAttempt_eq_backoff hr hd]
      exact backoff_stage (h _) (.first (f := sleep.begun cursor.step.1.delay))

/-- A look at the attempts comes to a stage; it may make several of them. -/
theorem attempts_stage :
    Stage next sleep request (attempts next sleep request follow made cursor w).1.poll := by
  induction follow generalizing made cursor w with
  | zero => exact .unfollowed
  | succ follow ih =>
    cases hb : (attemptBounds request).broken? w with
    | some e =>
      rw [attempts_of_dead hb]
      exact .result _
    | none =>
      rw [attempts_of_live hb]
      rcases Future.gives_or_leaves (next.deferred request) w with ⟨x, hx⟩ | hx
      · rw [Future.bind_of_gives hx]
        exact afterAttempt_stage fun _ _ => ih
      · rw [(hx.bind _).rest]
        exact .attempt (live_iff.mpr hb) .first follow _ cursor

/-- A look at a stage comes to a stage. -/
theorem Stage.look {g : Future Outcome} (h : Stage next sleep request g) (v : World) :
    Stage next sleep request (g v).1.poll := by
  cases h with
  | @attempt w q live rest follow made cursor =>
    rcases Future.gives_or_leaves q v with ⟨x, hx⟩ | hx
    · rw [Future.bind_of_gives hx]
      exact afterAttempt_stage fun _ _ => attempts_stage
    · rw [(hx.bind _).rest]
      exact .attempt live (rest.look v) follow made cursor
  | @backoff w delay nap rest follow made cursor =>
    exact backoff_stage (fun _ => attempts_stage) (rest.look v)
  | result x => exact .result x
  | unfollowed => exact .unfollowed

theorem stage_of_rest {g : Future Outcome}
    (h : Future.Rest (attempts next sleep request follow made cursor) w g) :
    Stage next sleep request g := by
  induction h with
  | first => exact attempts_stage
  | look v _ ih => exact ih.look v

/-- A retried call never attempts a dead request, and lets go of a backoff as soon as its request
is dead, whatever the next call and the sleep do and whenever it is looked at. -/
structure Careful (r : Retry) (next : Unary) (request : Request) : Prop where
  /-- No attempt begins where the request is dead: what the next call would do there is all the
  same to the call. -/
  attempts_live : ∀ other : Unary, (∀ w, Live request w → other request w = next request w) →
    r.wrapUnary other request = r.wrapUnary next request
  /-- Whatever is left of the call is an attempt that began in time, a backoff, or a result. -/
  stage : ∀ w₀ w g, Future.Rest (r.wrapUnary next request w₀).1 w g → Stage next r.sleep request g
  /-- A rejected attempt with a retry left goes on as a backoff, which is looked at at once. -/
  rejected : ∀ made cursor again e w, e.isRateLimited = true → cursor.step.1.done = false →
    afterAttempt r.sleep request made cursor again (.error e) w =
      let u := w.record (backoffEvent request e made cursor.step.1.delay)
      backoff request (r.sleep cursor.step.1.delay u).1 (again cursor.step.2)
        (r.sleep cursor.step.1.delay u).2
  /-- A canceled call leaves its backoff, also when its deadline has come or its sleep is over. -/
  canceled : ∀ nap again w, w.isCanceled request.token = true →
    backoff request nap again w =
      (.done (.error (.canceled "call canceled during backoff")), w)
  /-- An expired call leaves its backoff, also when its sleep is over. -/
  expired : ∀ nap again w, w.isCanceled request.token = false →
    w.isPast request.deadline = true →
    backoff request nap again w =
      (.done (.error (.deadlineExceeded "deadline exceeded during backoff")), w)
  /-- Only then may the end of the sleep bring on the next attempt. -/
  slept : ∀ nap again w v, Live request w → nap w = (.done (), v) →
    backoff request nap again w = again v
  sleeping : ∀ nap rest again w v, Live request w → nap.Leaves w rest v →
    (backoff request nap again).Leaves w (backoff request rest again) v

theorem wrapUnary_careful (r : Retry) (next : Unary) (request : Request) :
    Careful r next request where
  attempts_live other h := by
    funext w
    unfold wrapUnary
    simp only [attempts_congr h]
  stage w₀ w g h := stage_of_rest h
  rejected made cursor again e w h hd := afterAttempt_eq_backoff h hd
  canceled nap again w h := backoff_of_broken (Bounds.broken?_of_canceled h)
  expired nap again w h hd := backoff_of_broken (Bounds.broken?_of_past h hd)
  slept nap again w v h hn := backoff_of_slept h hn
  sleeping nap rest again w v h hn := backoff_of_sleeping h hn

/-- A sleep that is over when the deadline comes, with the call canceled too and without. -/
theorem wrapUnary_careful_tie :
    let request := { Request.ofBody "p" default 0 with deadline := some .start }
    let canceled := World.initial.cancel 0
    backoff request (.ready ()) .never canceled =
        (.done (.error (.canceled "call canceled during backoff")), canceled) ∧
      backoff request (.ready ()) .never .initial =
        (.done (.error (.deadlineExceeded "deadline exceeded during backoff")), .initial) := by
  intro request canceled
  have h := wrapUnary_careful ⟨.standard, none, .recorded, 0⟩ (fun _ w => (.never, w)) request
  exact ⟨h.canceled _ _ _ rfl, h.expired _ _ _ rfl rfl⟩

end RpcPolicy.Retry
