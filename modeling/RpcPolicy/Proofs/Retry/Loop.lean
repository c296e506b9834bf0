import RpcPolicy.Proofs.Backoff.Steps
import RpcPolicy.Proofs.Call.Clock
/-! The loop of a retried call, unfolded round by round. Main statement: what one attempt and one
backoff keep is kept by all runs of the loop. -/

namespace RpcPolicy

/-- A rate limit rejected the attempt. -/
def isRejection : Outcome → Bool
  | .ok _ => false
  | .error e => e.isRateLimited

namespace Retry

variable {next : Unary} {sleep : Sleep} {request : Request} {made follow : Nat}
  {cursor c : Cursor} {again : Cursor → Future Outcome} {x : Outcome} {e : CallError} {w : World}

/-! ### One round -/

theorem attempts_of_live (h : (attemptBounds request).broken? w = none) :
    attempts next sleep request (follow + 1) made cursor w =
      Future.bind (next.deferred request) (afterAttempt sleep request (countAttempt made) cursor
        (attempts next sleep request follow (countAttempt made))) w := by
  simp only [attempts, h]

theorem attempts_of_dead (h : (attemptBounds request).broken? w = some e) :
    attempts next sleep request (follow + 1) made cursor w = (.done (.error e), w) := by
  simp only [attempts, h]

theorem afterAttempt_of_passed (h : isRejection x = false) :
    afterAttempt sleep request made cursor again x = .ready x := by
  cases x with
  | ok response => rfl
  | error e =>
    have he : e.isRateLimited = false := h
    simp only [afterAttempt, he, Bool.false_eq_true, if_false]

theorem afterAttempt_of_done (h : e.isRateLimited = true) (hd : cursor.step.1.done = true) :
    afterAttempt sleep request made cursor again (.error e) = fun w =>
      (.done (.error (.retriesExhausted made e)), w.record (exhaustedEvent request e made)) := by
  simp only [afterAttempt, h, hd, if_true]

theorem afterAttempt_of_retry (h : e.isRateLimited = true) (hd : cursor.step.1.done = false) :
    afterAttempt sleep request made cursor again (.error e) = fun w =>
      Future.bind (pause sleep request cursor.step.1.delay) (afterPause (again cursor.step.2))
        (w.record (backoffEvent request e made cursor.step.1.delay)) := by
  simp only [afterAttempt, h, hd, if_true, Bool.false_eq_true, if_false]

/-! ### All rounds -/

variable {env : Environment} {R S : World → Prop} {Q : Outcome → World → Prop}
  {delay : Duration}

/-- A backoff in which no bound is broken ends with its sleep. -/
theorem pause_completes
    (hs : (sleep.begun delay).Completes env w (fun _ v => R v) fun _ => False)
    (hw : (backoffBounds request).broken? (sleep delay w).2 = none)
    (hb : ∀ w v, env w v → (backoffBounds request).broken? v = none) :
    (pause sleep request delay).Completes env w (fun x v => x = .ok () ∧ R v) S := by
  have hnap : (sleep delay w).1.Completes env (sleep delay w).2 (fun _ v => R v)
      fun _ => False := hs
  have hok := hnap.bind (k := fun _ => .ready (.ok ()))
    (R := fun (x : Except CallError Unit) v => x = .ok () ∧ R v)
    fun _ v hv => Future.completes_ready ⟨rfl, hv⟩
  exact hok.limit hw hb

/-- `I n` holds before the attempt that follows `n` backoffs, `J n` after its rejection, and `S`
where following the loop was given up. -/
theorem attempts_complete {I : Nat → World → Prop} {J : Nat → CallError → World → Prop}
    (hc : c.Fresh)
    (bounds : ∀ w v, env w v → (backoffBounds request).broken? v = none)
    (live : ∀ n w, I n w → (attemptBounds request).broken? w = none)
    (attempt : ∀ n w, I n w → (next.deferred request).Completes env w
      (fun x v => (isRejection x = false → Q x v) ∧
        ∀ e, x = .error e → e.isRateLimited = true → J n e v) S)
    (exhausted : ∀ n e v, J n e v → ¬ c.policy.Permits n →
      Q (.error (.retriesExhausted (min (n + 1) attemptLimit) e))
        (v.record (exhaustedEvent request e (min (n + 1) attemptLimit))))
    (backoff : ∀ n e v u, J n e v → c.policy.Permits n →
      u = v.record (backoffEvent request e (min (n + 1) attemptLimit) (c.delay n)) →
      (backoffBounds request).broken? (sleep (c.delay n) u).2 = none ∧
        (sleep.begun (c.delay n)).Completes env u (fun _ v => I (n + 1) v) fun _ => False)
    {n : Nat} (unfollowed : ∀ w, I (n + follow) w → S w) (start : I n w) :
    (attempts next sleep request follow (min n attemptLimit) (c.after n)).Completes env w Q S := by
  induction follow generalizing n w with
  | zero => exact .stuck (unfollowed w start)
  | succ follow ih =>
    refine Future.Completes.of_eq ?_ (attempts_of_live (live n w start))
    rw [countAttempt_min]
    apply Future.Completes.bind (attempt n w start)
    intro x v hx
    cases hr : isRejection x with
    | false =>
      rw [afterAttempt_of_passed hr]
      exact Future.completes_ready (hx.1 hr)
    | true =>
      obtain ⟨e, rfl⟩ : ∃ e, x = .error e := by
        cases x with
        | ok response => cases hr
        | error e => exact ⟨e, rfl⟩
      have hj := hx.2 e rfl hr
      by_cases hp : c.policy.Permits n
      · rw [afterAttempt_of_retry hr ((Cursor.done_after hc n).mpr hp)]
        obtain ⟨hlive, hnap⟩ := backoff n e v _ hj hp rfl
        apply Future.Completes.bind (pause_completes hnap hlive bounds)
        rintro _ u ⟨rfl, hu⟩
        exact ih (fun w h => unfollowed w (by rwa [show n + (follow + 1) = n + 1 + follow by omega]))
          hu
      · have hd : (c.after n).step.1.done = true := by
          rwa [← Cursor.done_after hc, Bool.not_eq_false] at hp
        rw [afterAttempt_of_done hr hd]
        exact .done (exhausted n e v hj (by rwa [← Cursor.done_after hc, Bool.not_eq_false]))

end Retry

end RpcPolicy
