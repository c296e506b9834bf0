import RpcPolicy.Proofs.Client.Dead
import RpcPolicy.Proofs.Limits.Attempt
import RpcPolicy.Proofs.Retry.Rounds
/-! Retried attempts whose layers may edit what is sent. Main statement: a call through the layers
of a configuration is a sequence of attempts, of which only rejected ones are followed by
another. -/

namespace RpcPolicy.Limits

/-- What goes on between attempts: something is written down, sources of seeds move on, and a
backoff goes by. -/
inductive Silent (token : Token) : Environment
  | told (w : World) (e : Entry) : Silent token w (w.record e)
  | seeded (w : World) (counters : List Nat) (entropy : UInt64) :
      Silent token w { w with counters := counters, entropy := entropy }
  | slept {t : Instant} {v w : World}
      (nap : (Future.sleepUntil t).Ends (Uncanceled token) w () v) : Silent token w v

/-- Some attempts of a call, in order. -/
abbrev History (t : Transport) (limiter : Option Limiter) {token : Token} (es : List (Editor token))
    (request : Request) : List Attempt → World → World → Prop :=
  Trace (Silent token) (Happens t limiter es request)

/-- What a call ends in if its last attempt ends in `y`: in the same, except that retries give a
rejected call up. -/
def Concludes (retries : Bool) (y x : Outcome) : Prop :=
  (isRejection y = false ∧ x = y) ∨
    ∃ e, y = .error e ∧ e.isRateLimited = true ∧
      if retries then ∃ n, x = .error (.retriesExhausted n e) else x = y

/-- Attempts that were each rejected by a rate limit. -/
def Rejected (past : List Attempt) : Prop := ∀ a ∈ past, isRejection a.outcome = true

variable {t : Transport} {limiter : Option Limiter} {request : Request}
  {es : List (Editor request.token)} {c : Cursor} {n : Nat} {v w : World}

theorem Rejected.nil : Rejected [] := List.forall_mem_nil _

theorem Rejected.cons {a : Attempt} {past : List Attempt} (ha : isRejection a.outcome = true)
    (h : Rejected past) : Rejected (a :: past) := by
  intro b hb
  rcases List.mem_cons.mp hb with rfl | hb
  · exact ha
  · exact h b hb

/-- Whatever was done keeps to the options of the request. -/
theorem History.within {token : Token} {es : List (Editor token)} {acts : List Attempt}
    (h : History t limiter es request acts w v) : ∀ a ∈ acts, a.Within request.options := by
  induction h with
  | refl => exact List.forall_mem_nil _
  | quiet _ _ ih => exact ih
  | act step _ ih =>
    intro b hb
    rcases List.mem_cons.mp hb with rfl | hb
    · exact step.within
    · exact ih b hb

/-! ### Retries -/

theorem unbroken {s s' : String} (hd : request.deadline = none)
    (hw : w.isCanceled request.token = false) :
    (Bounds.mk request.token s request.deadline s').broken? w = none := by
  rw [hd]
  exact Bounds.broken?_eq_none.mpr ⟨hw, rfl⟩

/-- A backoff goes by. -/
theorem pause_leads (delay : Duration) {H : World → Prop} (hd : request.deadline = none)
    (hw : w.isCanceled request.token = false) :
    (Retry.pause .timer request delay).Leads (Uncanceled request.token) w
      (fun y v => y = .ok () ∧ v.isCanceled request.token = false ∧ Silent request.token w v)
      H := by
  have hnap := (Future.Leads.sleepUntil (t := w.clock.after delay) (H := H) hw).and_runs
  have hok := hnap.bind (k := fun _ => Future.ready (Except.ok ()))
    (R := fun (y : Except CallError Unit) v =>
      y = .ok () ∧ v.isCanceled request.token = false ∧ Silent request.token w v)
    fun _ v hv => .ready ⟨rfl, hv.1, .slept hv.2⟩
  have hbounded := hok.limit (b := Retry.backoffBounds request) (unbroken hd hw)
    fun _ v hv => unbroken hd hv
  exact (hbounded.mono (fun _ _ h => h) fun _ h => h.1).of_eq rfl

theorem error_of_isRejection {x : Outcome} (h : isRejection x = true) :
    ∃ e, x = .error e ∧ e.isRateLimited = true := by
  cases x with
  | ok response => cases h
  | error e => exact ⟨e, rfl, h⟩

/-- Without retries a call ends in what its attempt ends in. -/
theorem concludes_self (y : Outcome) : Concludes false y y := by
  cases hy : isRejection y with
  | false => exact Or.inl ⟨hy, rfl⟩
  | true =>
    obtain ⟨e, rfl, he⟩ := error_of_isRejection hy
    exact Or.inr ⟨e, rfl, he, rfl⟩

/-- After a rejection that may be retried a backoff goes by, and then the call goes on. -/
theorem backoff_leads {e : CallError} {made : Nat} {again : Cursor → Future Outcome}
    {Q : Outcome → World → Prop} {H : World → Prop} (hd : request.deadline = none)
    (hw : w.isCanceled request.token = false) (he : e.isRateLimited = true)
    (hstep : c.step.1.done = false)
    (hagain : ∀ told u, Silent request.token w told → Silent request.token told u →
      u.isCanceled request.token = false →
      (again c.step.2).Leads (Uncanceled request.token) u Q H) :
    (Retry.afterAttempt .timer request made c again (.error e)).Leads (Uncanceled request.token)
      w Q H := by
  rw [Retry.afterAttempt_of_retry he hstep]
  let told := w.record (Retry.backoffEvent request e made c.step.1.delay)
  have htold : told.isCanceled request.token = false := hw
  have hpause := pause_leads c.step.1.delay (H := H) hd htold
  have hcall := hpause.bind (k := Retry.afterPause (again c.step.2)) (R := Q) ?_
  · exact hcall.of_eq rfl
  · rintro _ u ⟨rfl, hu, hslept⟩
    exact hagain told u (.told w _) hslept hu

/-- How attempts may come to a standstill: one stays with the transport, or no more are followed
although the policy permits a retry after each. -/
def Stands (t : Transport) (limiter : Option Limiter) (es : List (Editor request.token))
    (policy : BackoffPolicy) (follow n : Nat) (past : List Attempt) (w v : World) : Prop :=
  (∃ u sent, History t limiter es request past w u ∧ Hangs t limiter es request sent u v) ∨
    past.length = follow ∧ (∀ i < follow, policy.Permits (n + i)) ∧
      History t limiter es request past w v

/-- One more attempt before the others. -/
theorem Stands.cons {policy : BackoffPolicy} {follow : Nat} {a : Attempt} {past : List Attempt}
    {u v' : World} (hp : policy.Permits n)
    (hbefore : ∀ acts s, History t limiter es request acts u s →
      History t limiter es request (a :: acts) w s)
    (h : Stands t limiter es policy follow (n + 1) past u v') :
    Stands t limiter es policy (follow + 1) n (a :: past) w v' := by
  rcases h with ⟨s, sent, hpast, hhangs⟩ | ⟨hlen, hpermits, hpast⟩
  · exact Or.inl ⟨s, sent, hbefore past s hpast, hhangs⟩
  · refine Or.inr ⟨by rw [List.length_cons, hlen], ?_, hbefore past v' hpast⟩
    intro i hi
    cases i with
    | zero => exact hp
    | succ i =>
      have hnext := hpermits i (by omega)
      rwa [show n + 1 + i = n + (i + 1) by omega] at hnext

/-- Every attempt but the last is rejected by a rate limit. -/
theorem attempts_lead (hl : ∀ l, limiter = some l → l.isUnlimited = false)
    (ht : Mild request.token t) (es : List (Editor request.token))
    (hd : request.deadline = none) (hc : c.Fresh) (follow : Nat)
    (hw : w.isCanceled request.token = false) :
    (Retry.attempts (attempt t limiter es) .timer request follow (min n attemptLimit)
        (c.after n)).Leads (Uncanceled request.token) w
      (fun x v => ∃ past last, Rejected past ∧ Concludes true last.outcome x ∧
        History t limiter es request (past ++ [last]) w v)
      fun v => ∃ past, Rejected past ∧ Stands t limiter es c.policy follow n past w v := by
  induction follow generalizing n w with
  | zero =>
    refine ⟨fun x v hends => (by cases hends), fun v hhalts => ?_⟩
    cases hhalts
    exact ⟨[], .nil, Or.inr ⟨rfl, (fun _ hi => absurd hi (Nat.not_lt_zero _)), .refl w⟩⟩
  | succ follow ih =>
    refine Future.Leads.of_eq ?_ (Retry.attempts_of_live (unbroken hd hw))
    rw [countAttempt_min]
    have hattempt := attempt_leads hl ht es request hw
    refine (hattempt.mono (fun _ _ h => h) ?_).bind ?_
    · rintro v ⟨sent, hhangs⟩
      exact ⟨[], .nil, Or.inl ⟨w, sent, .refl w, hhangs⟩⟩
    rintro x v ⟨hv, a, rfl, ha⟩
    cases hr : isRejection a.outcome with
    | false =>
      rw [Retry.afterAttempt_of_passed hr]
      exact .ready ⟨[], a, .nil, Or.inl ⟨hr, rfl⟩, .single ha⟩
    | true =>
      obtain ⟨e, he, hlimited⟩ := error_of_isRejection hr
      rw [he]
      by_cases hp : c.policy.Permits n
      · refine backoff_leads hd hv hlimited ((Cursor.done_after hc n).mpr hp) ?_
        intro told u htold hslept hu
        have hbefore : ∀ acts s, History t limiter es request acts u s →
            History t limiter es request (a :: acts) w s :=
          fun _ _ hacts => .act ha (.quiet htold (.quiet hslept hacts))
        refine (ih (n := n + 1) hu).mono ?_ ?_
        · rintro x v' ⟨past, last, hrejected, hconcludes, hpast⟩
          exact ⟨a :: past, last, hrejected.cons hr, hconcludes, hbefore _ v' hpast⟩
        · rintro v' ⟨past, hrejected, hstands⟩
          exact ⟨a :: past, hrejected.cons hr, hstands.cons hp hbefore⟩
      · have hdone : (c.after n).step.1.done = true := by
          rwa [← Cursor.done_after hc, Bool.not_eq_false] at hp
        rw [Retry.afterAttempt_of_done hlimited hdone]
        refine Future.Leads.of_eq (g := Future.ready _) (v := v.record _) (.ready ?_) rfl
        exact ⟨[], a, .nil, Or.inr ⟨e, he, hlimited, _, rfl⟩,
          .act ha (.quiet (.told v _) (.refl _))⟩

theorem cursor_silent (r : Retry) (w : World) (token : Token) : Silent token w (r.cursor w).2 := by
  unfold Retry.cursor
  cases r.seed with
  | none => exact .seeded w w.counters _
  | some seed => exact .seeded w _ w.entropy

/-- Retries make attempts, with a cursor of their own. -/
theorem retried_leads {r : Retry} (hsleep : r.sleep = Sleep.timer)
    (hl : ∀ l, limiter = some l → l.isUnlimited = false) (ht : Mild request.token t)
    (es : List (Editor request.token)) (hd : request.deadline = none)
    (hw : w.isCanceled request.token = false) :
    ((r.wrapUnary (attempt t limiter es)).deferred request).Leads (Uncanceled request.token) w
      (fun x v => ∃ past last, Rejected past ∧ Concludes true last.outcome x ∧
        History t limiter es request (past ++ [last]) w v)
      fun v => ∃ past, Rejected past ∧
        Stands t limiter es r.policy (Retry.followed r.policy w) 0 past w v := by
  have hseeded := cursor_silent r w request.token
  have hlive : (r.cursor w).2.isCanceled request.token = false := by
    rw [World.isCanceled, (cursor_buckets r w).1]
    exact hw
  have hruns := attempts_lead (c := (r.cursor w).1) (n := 0) hl ht es hd
    Retry.cursor_fresh (Retry.followed r.policy w) hlive
  rw [Retry.policy_cursor] at hruns
  refine Future.Leads.of_eq ?_ (Pipeline.deferred_retry _ r)
  rw [hsleep]
  refine hruns.mono ?_ ?_
  · rintro x v ⟨past, last, hrejected, hconcludes, hpast⟩
    exact ⟨past, last, hrejected, hconcludes, .quiet hseeded hpast⟩
  · rintro v ⟨past, hrejected, ⟨u, sent, hpast, hhangs⟩ | ⟨hlen, hpermits, hpast⟩⟩
    · exact ⟨past, hrejected, Or.inl ⟨u, sent, .quiet hseeded hpast, hhangs⟩⟩
    · exact ⟨past, hrejected, Or.inr ⟨hlen, hpermits, .quiet hseeded hpast⟩⟩

/-! ### The layers of a configuration -/

variable {config : ClientConfig} {w₀ : World}

theorem limits_ofConfig {l : Limiter}
    (hl : (UnaryPolicies.ofConfig config w₀).1.limiter = some l) : l.isUnlimited = false := by
  have hrate := Pipeline.isSome_limiter config w₀
  rw [hl] at hrate
  rw [Limiter.isUnlimited, (Pipeline.limiter_ofConfig hl).1]
  exact TokenBucket.isUnlimitedRate_of_pos hrate.symm

/-- How a call may come to a standstill: an attempt stays with the transport, or the call has no
ceiling and the patience of the world is at its end. -/
def StandsStill (config : ClientConfig) (t : Transport) (limiter : Option Limiter)
    {token : Token} (es : List (Editor token)) (request : Request) (past : List Attempt)
    (w v : World) : Prop :=
  (∃ u sent, History t limiter es request past w u ∧ Hangs t limiter es request sent u v) ∨
    config.retryOnRateLimit = true ∧ config.backoff.maxRetries = 0 ∧ past.length = w.patience ∧
      History t limiter es request past w v

theorem compose_leads (config : ClientConfig) (w₀ : World) (request : Request)
    (es : List (Editor request.token)) (ht : Mild request.token t) (hd : request.deadline = none)
    (hw : w.isCanceled request.token = false) :
    let p := (UnaryPolicies.ofConfig config w₀).1
    (((p.compose (editors es)).wrapUnary t.innermostUnary).deferred request).Leads
      (Uncanceled request.token) w
      (fun x v => ∃ past last, Rejected past ∧ (config.retryOnRateLimit = false → past = []) ∧
        Concludes config.retryOnRateLimit last.outcome x ∧
        History t p.limiter es request (past ++ [last]) w v)
      fun v => ∃ past, Rejected past ∧ StandsStill config t p.limiter es request past w v := by
  intro p
  have hl : ∀ l, p.limiter = some l → l.isUnlimited = false := fun l h => limits_ofConfig h
  have hretry : p.retry.isSome = config.retryOnRateLimit := Pipeline.isSome_retry config w₀
  rw [← hretry]
  cases hr : p.retry with
  | none =>
    have hcall : (p.compose (editors es)).wrapUnary t.innermostUnary = attempt t p.limiter es := by
      unfold UnaryPolicies.compose
      rw [hr]
      rfl
    rw [hcall]
    refine (attempt_leads hl ht es request hw).mono ?_ ?_
    · rintro x v ⟨-, a, rfl, ha⟩
      exact ⟨[], a, .nil, fun _ => rfl, concludes_self a.outcome, .single ha⟩
    · rintro v ⟨sent, hhangs⟩
      exact ⟨[], .nil, Or.inl ⟨w, sent, .refl w, hhangs⟩⟩
  | some r =>
    have hcall : (p.compose (editors es)).wrapUnary t.innermostUnary =
        r.wrapUnary (attempt t p.limiter es) := wrapUnary_retry hr
    obtain ⟨hpolicy, hsleep⟩ := Pipeline.retry_ofConfig hr
    have hon : config.retryOnRateLimit = true := by
      rw [← hretry, hr]
      rfl
    rw [hcall]
    refine (retried_leads hsleep hl ht es hd hw).mono ?_ ?_
    · rintro x v ⟨past, last, hrejected, hconcludes, hpast⟩
      exact ⟨past, last, hrejected, (fun h => by cases h), hconcludes, hpast⟩
    · rintro v ⟨past, hrejected, hhangs | ⟨hlen, hpermits, hpast⟩⟩
      · exact ⟨past, hrejected, Or.inl hhangs⟩
      · simp only [Nat.zero_add, hpolicy] at hpermits
        obtain ⟨h0, hfollowed⟩ := Retry.followed_of_permits hpermits
        rw [hpolicy, hfollowed] at hlen
        exact ⟨past, hrejected, Or.inr ⟨hon, h0, hlen, hpast⟩⟩

end RpcPolicy.Limits
