import Mathlib.Data.Nat.Find
import Mathlib.Order.Monotone.Basic
import RpcPolicy.Proofs.Backoff.Course
import RpcPolicy.Proofs.Call.Ticks
import RpcPolicy.Proofs.Client.Making
import RpcPolicy.Proofs.Retry.Rounds
import RpcPolicy.Proofs.Retry.Stages
/-! Retried calls that are rejected at once every time, with a deadline and a clock that jumps from
one timer to the next. Main statement: at which instants attempts are made, and how and when the
call ends. -/

namespace RpcPolicy

/-! ### When attempts come -/

namespace BackoffPolicy

/-- The nanoseconds of the delay after an attempt, without jitter. -/
def pause (p : BackoffPolicy) (k : Nat) : Nat := min (p.minDelay.nanos * 2 ^ k) p.cap.nanos

/-- The sum of the first delays: how long after the first attempt each one comes, if all before it
are rejected at once. -/
def pauses (p : BackoffPolicy) : Nat → Nat
  | 0 => 0
  | k + 1 => p.pauses k + p.pause k

variable {p : BackoffPolicy} {k : Nat}

theorem monotone_pauses (p : BackoffPolicy) : Monotone p.pauses :=
  monotone_nat_of_le_succ fun _ => Nat.le_add_right _ _

theorem cap_pos (p : BackoffPolicy) : 0 < p.cap.nanos := by
  have hlongest : 0 < 2 ^ 64 * nanosPerSecond - 1 := by decide
  rw [p.nanos_cap]
  split
  · exact hlongest
  · exact Nat.pos_of_ne_zero (by assumption)

/-- With a delay above zero every attempt comes later than the one before. -/
theorem le_pauses (h : 0 < p.minDelay.nanos) : k ≤ p.pauses k := by
  induction k with
  | zero => exact Nat.le_refl 0
  | succ k ih =>
    have hpause : 0 < p.pause k :=
      Nat.lt_min.mpr ⟨Nat.mul_pos h (Nat.two_pow_pos k), p.cap_pos⟩
    rw [pauses]
    omega

end BackoffPolicy

/-- Attempts that come one after another are made until the ceiling or the time is reached; both
the first attempt and one that is not made any more must exist. -/
theorem exists_count {N D : Nat} {T : Nat → Nat} (hT : Monotone T) (first : T 0 < D)
    (last : 0 < N ∨ ∃ k, D ≤ T k) :
    ∃ K, 0 < K ∧ ∀ k, (N = 0 ∨ k ≤ N) ∧ T k < D ↔ k < K := by
  have hlast : ∃ k, ¬ ((N = 0 ∨ k ≤ N) ∧ T k < D) := by
    rcases last with hN | ⟨k, hk⟩
    · exact ⟨N + 1, by omega⟩
    · exact ⟨k, by omega⟩
  have hnot := Nat.find_spec hlast
  refine ⟨Nat.find hlast, (Nat.find_pos hlast).mpr (by omega), fun k => ⟨fun hk => ?_, ?_⟩⟩
  · by_contra hge
    have hmono := hT (Nat.le_of_not_lt hge)
    omega
  · intro hk
    exact not_not.mp (Nat.find_min hlast hk)

/-! ### Calls that are rejected -/

/-- The instant of a call that a transport received. -/
def Entry.callTime? : Entry → Option Nat
  | .call _ time _ => some time.nanos
  | _ => none

/-- The instants of the calls that the transport received, in nanoseconds. -/
def callTimes (w : World) : List Nat := w.log.filterMap Entry.callTime?

theorem callTimes_record {w : World} {e : Entry} (h : e.callTime? = none) :
    callTimes (w.record e) = callTimes w := by
  rw [callTimes, World.log_record, List.filterMap_append, List.filterMap_cons_none h]
  exact List.append_nil _

theorem callTimes_record_call {w : World} {n : Nat} {t : Instant} {request : Request} :
    callTimes (w.record (.call n t request)) = callTimes w ++ [t.nanos] := by
  rw [callTimes, World.log_record, List.filterMap_append]
  rfl

/-- Calls that are received and then rejected by a rate limit at once, every time. -/
def Busy (next : Unary) : Prop :=
  ∀ request w, ∃ e v, next.deferred request w = (.done (.error e), v) ∧ e.isRateLimited = true ∧
    v.clock = w.clock ∧ v.canceled = w.canceled ∧ v.patience = w.patience ∧
    callTimes v = callTimes w ++ [w.clock.nanos]

namespace Retry

/-- What a backoff ends in when the deadline comes first. -/
def expiry : Outcome := .error (.deadlineExceeded "deadline exceeded during backoff")

/-- A policy without jitter and a request with a deadline `D` nanoseconds after an instant; `K`
attempts come before the deadline and within the ceiling. -/
structure Timed (p : BackoffPolicy) (request : Request) (limit : Instant) (start D K : Nat) :
    Prop where
  still : p.jitter.le 0 = true
  deadline : request.deadline = some limit
  limit : limit.nanos = start + D
  count : ∀ k, (p.maxRetries.toNat = 0 ∨ k ≤ p.maxRetries.toNat) ∧ p.pauses k < D ↔ k < K

/-- A call ends when the ceiling is reached in time, given up; or else with the deadline. -/
def Settles (p : BackoffPolicy) (limit : Instant) (start D : Nat) (x : Option Outcome)
    (v : World) : Prop :=
  if 0 < p.maxRetries.toNat ∧ p.pauses p.maxRetries.toNat < D then
    v.clock.nanos = start + p.pauses p.maxRetries.toNat ∧
      ∃ e, e.isRateLimited = true ∧
        x = some (.error (.retriesExhausted (min (p.maxRetries.toNat + 1) attemptLimit) e))
  else v.clock = limit ∧ x = none

/-- What a look at a call in `w` leads to when the attempts from `k` on are still to be made: each
is made at its offset, with at most a number of waits, and then the call settles. -/
def Ahead (p : BackoffPolicy) (request : Request) (limit : Instant) (start D K waits k : Nat)
    (w : World) (look : Process Outcome × World) : Prop :=
  ∃ n x v, n ≤ waits ∧ look.1.Ticks request.token limit expiry n look.2 x v ∧
    look.2.patience = w.patience ∧
    callTimes v = callTimes w ++ (List.range' k (K - k)).map (fun j => start + p.pauses j) ∧
    Settles p limit start D x v

variable {p : BackoffPolicy} {next : Unary} {request : Request} {limit t : Instant}
  {start D K k follow : Nat} {cursor : Cursor} {again : Future Outcome} {u v w : World}
  {r : Retry} {look : Process Outcome × World}

/-! ### One round -/

/-- A backoff waits for its sleep and for the bounds, and looks at the bounds first. -/
theorem backoff_of_waiting (hlive : Live request w) (ht : t.reached w.clock = false) :
    backoff request (Future.sleepUntil t) again w =
      (.waiting ((backoffBounds request).wait.or ⟨[], [t]⟩) fun v =>
        match (backoffBounds request).broken? v with
        | some e => (.done (.error e), v)
        | none => again v, w) := by
  have hsleep : Future.sleepUntil t w = (.waiting ⟨[], [t]⟩ fun v => (.done (), v), w) := by
    rw [Future.sleepUntil, ht, if_neg Bool.false_ne_true]
  unfold backoff Future.bind
  rw [Bounds.limit_of_unbroken (live_iff_backoff.mp hlive), hsleep, Process.bind_waiting,
    Process.cutOff_waiting, Process.bind_waiting]
  congr 2
  funext v
  cases (backoffBounds request).broken? v with
  | some e => rfl
  | none => rfl

theorem backoff_asleep (hlive : Live request w) (ht : t.reached w.clock = false) :
    ((backoffBounds request).wait.or ⟨[], [t]⟩).isOver w = false := by
  have hbounds := (backoffBounds request).isSome_broken? w
  rw [live_iff_backoff.mp hlive, Option.isSome_none] at hbounds
  rw [Wait.isOver_or, ← hbounds]
  simp only [Wait.isOver, List.any_cons, List.any_nil, ht, Bool.or_false]

theorem backoff_timers (h : request.deadline = some limit) :
    ((backoffBounds request).wait.or ⟨[], [t]⟩).timers = [limit, t] := by
  have hdeadline : (backoffBounds request).deadline = some limit := h
  simp only [Wait.or, Bounds.wait, hdeadline, Option.toList_some, List.cons_append, List.nil_append]

namespace Timed

theorem live (h : Timed p request limit start D K) (hk : p.pauses k < D)
    (hclock : w.clock.nanos = start + p.pauses k)
    (calm : w.isCanceled request.token = false) : Live request w := by
  have hlimit := h.limit
  refine ⟨calm, ?_⟩
  rw [World.isPast, h.deadline]
  exact decide_eq_false (by omega)

/-- A sleep that is asked for after an attempt ends when the next one is due, if that is before the
deadline, and else not before the deadline. -/
theorem nanos_after {delay : Duration} (h : Timed p request limit start D K)
    (hclock : w.clock.nanos = start + p.pauses k) (hdelay : delay.nanos = p.pause k) :
    (p.pauses (k + 1) < D → (w.clock.after delay).nanos = start + p.pauses (k + 1)) ∧
    (D ≤ p.pauses (k + 1) → limit.nanos ≤ (w.clock.after delay).nanos) := by
  have hafter := Instant.nanos_after w.clock delay
  have hlast : limit.nanos ≤ Instant.last.nanos := Nat.le_of_lt_succ limit.nanos_lt
  have hlimit := h.limit
  have hsum : p.pauses (k + 1) = p.pauses k + p.pause k := rfl
  omega

/-- The last attempt that the ceiling allows is followed by nothing. -/
theorem last (h : Timed p request limit start D K) (hk : k < K)
    (hceiling : 0 < p.maxRetries.toNat) (hle : p.maxRetries.toNat ≤ k) :
    k = p.maxRetries.toNat ∧ K = k + 1 := by
  have hmade := (h.count k).mpr hk
  have hnext := h.count (k + 1)
  omega

/-- When the next attempt would come too late it is not made, and the ceiling is not reached in
time. -/
theorem late (h : Timed p request limit start D K) (hk : k < K)
    (hretry : p.maxRetries.toNat = 0 ∨ k < p.maxRetries.toNat)
    (hlate : D ≤ p.pauses (k + 1)) :
    K = k + 1 ∧ ¬ (0 < p.maxRetries.toNat ∧ p.pauses p.maxRetries.toNat < D) := by
  have hnext := h.count (k + 1)
  refine ⟨by omega, ?_⟩
  rintro ⟨hpos, hlt⟩
  have hlater : k + 1 ≤ p.maxRetries.toNat := by omega
  have hmono := p.monotone_pauses hlater
  omega

end Timed

/-- With one attempt made, what is ahead of the next is ahead of this one. -/
theorem Ahead.before {waits : Nat} (h : Ahead p request limit start D K waits (k + 1) v look)
    (hk : k < K) (hpatience : v.patience = w.patience)
    (hcalls : callTimes v = callTimes w ++ [start + p.pauses k]) :
    Ahead p request limit start D K waits k w look := by
  obtain ⟨n, x, u, hn, hticks, hsame, htimes, hsettles⟩ := h
  obtain ⟨rest, hrest⟩ : ∃ rest, K - k = rest + 1 := ⟨K - k - 1, by omega⟩
  have hless : K - (k + 1) = rest := by omega
  refine ⟨n, x, u, hn, hticks, hsame.trans hpatience, ?_, hsettles⟩
  rw [htimes, hcalls, hrest, hless, List.range'_succ, List.append_assoc]
  rfl

theorem Ahead.mono {m n : Nat} (h : Ahead p request limit start D K m k w look) (hmn : m ≤ n) :
    Ahead p request limit start D K n k w look := by
  obtain ⟨i, x, v, hi, rest⟩ := h
  exact ⟨i, x, v, Nat.le_trans hi hmn, rest⟩

/-- A backoff whose sleep would end with the deadline or after it ends with the deadline. -/
theorem expired_ahead (h : Timed p request limit start D K) (hk : k < K)
    (hretry : p.maxRetries.toNat = 0 ∨ k < p.maxRetries.toNat) (hlive : Live request w)
    (hreached : t.reached w.clock = false) (htimer : limit.nanos ≤ t.nanos)
    (hlate : D ≤ p.pauses (k + 1)) :
    Ahead p request limit start D K (K - k) (k + 1) w
      (backoff request (Future.sleepUntil t) again w) := by
  have hnot : ¬ t.nanos < limit.nanos := Nat.not_lt.mpr htimer
  obtain ⟨hlast, hnever⟩ := h.late hk hretry hlate
  have hpast : (w.atInstant limit).isPast request.deadline = true := by
    rw [h.deadline]
    exact decide_eq_true (Nat.le_refl limit.nanos)
  have hexpired : (backoffBounds request).broken? (w.atInstant limit) =
      some (.deadlineExceeded "deadline exceeded during backoff") :=
    Bounds.broken?_of_past hlive.1 hpast
  rw [backoff_of_waiting hlive hreached]
  refine ⟨1, none, w.atInstant limit, by omega,
    .expired (backoff_asleep hlive hreached) hlive.1 ?timer ?ends, rfl, ?calls, ?settles⟩
  case timer =>
    rw [backoff_timers h.deadline, Schedule.earliest?, Schedule.earliest?, Schedule.earliest?]
    simp only [hnot, if_false]
  case ends => simp only [hexpired, expiry]
  case calls =>
    rw [hlast, Nat.sub_self]
    exact (List.append_nil _).symm
  case settles =>
    rw [Settles, if_neg hnever]
    exact ⟨rfl, rfl⟩

/-- A backoff goes by at once, or with one wait; or the deadline comes first, or both at the same
time, and the call expires. -/
theorem backoff_ahead {delay : Duration} (h : Timed p request limit start D K) (hk : k < K)
    (hretry : p.maxRetries.toNat = 0 ∨ k < p.maxRetries.toNat) (hdelay : delay.nanos = p.pause k)
    (hclock : w.clock.nanos = start + p.pauses k)
    (calm : w.isCanceled request.token = false)
    (hagain : ∀ u : World, k + 1 < K → u.clock.nanos = start + p.pauses (k + 1) →
      u.isCanceled request.token = false →
      Ahead p request limit start D K (K - (k + 1)) (k + 1) u (again u)) :
    Ahead p request limit start D K (K - k) (k + 1) w
      (backoff request (Future.sleepUntil (w.clock.after delay)) again w) := by
  have hearly := ((h.count k).mpr hk).2
  have hlive := h.live hearly hclock calm
  have hnext := h.count (k + 1)
  have hlimit := h.limit
  obtain ⟨hintime, hlate⟩ := h.nanos_after hclock hdelay
  generalize w.clock.after delay = t at hintime hlate
  cases hreached : t.reached w.clock with
  | true =>
    have hsleep : Future.sleepUntil t w = (.done (), w) := by
      rw [Future.sleepUntil, if_pos hreached]
    have hmono := p.monotone_pauses (Nat.le_add_right k 1)
    have hle : t.nanos ≤ w.clock.nanos := of_decide_eq_true hreached
    have hD : p.pauses (k + 1) < D := by
      by_contra hD
      have := hlate (Nat.le_of_not_lt hD)
      omega
    have htimer := hintime hD
    rw [backoff_of_slept hlive hsleep]
    exact (hagain w (by omega) (by omega) calm).mono (by omega)
  | false =>
    by_cases hD : p.pauses (k + 1) < D
    · have htimer := hintime hD
      have hbefore : t.nanos < limit.nanos := by omega
      have hlater : Live request (w.atInstant t) := h.live hD htimer calm
      obtain ⟨n, x, v, hn, hticks, -, hrest⟩ := hagain (w.atInstant t) (by omega) htimer calm
      rw [backoff_of_waiting hlive hreached]
      refine ⟨n + 1, x, v, by omega,
        .waited (backoff_asleep hlive hreached) calm ?timer hbefore ?rest, rfl, hrest⟩
      case timer =>
        rw [backoff_timers h.deadline]
        exact Schedule.earliest?_cons rfl (Or.inl hbefore)
      case rest =>
        simp only [live_iff_backoff.mp hlater]
        exact hticks
    · have hnot := Nat.le_of_not_lt hD
      exact expired_ahead h hk hretry hlive hreached (hlate hnot) hnot

/-! ### All rounds -/

/-- The attempts from `k` on, by induction on how many are followed; the cursor has taken a step for
every attempt so far. -/
theorem attempts_ahead (h : Timed p request limit start D K) (hbusy : Busy next)
    (hc : cursor.Stands p k) (hk : k < K) (hfollow : K ≤ k + follow)
    (hclock : w.clock.nanos = start + p.pauses k)
    (calm : w.isCanceled request.token = false) :
    Ahead p request limit start D K (K - k) k w
      (attempts next Sleep.timer request follow (min k attemptLimit) cursor w) := by
  induction follow generalizing k cursor w with
  | zero => omega
  | succ follow ih =>
    obtain ⟨hceiling, hearly⟩ := (h.count k).mpr hk
    have hlive := h.live hearly hclock calm
    obtain ⟨e, v, hv, he, hvclock, hvcanceled, hvpatience, hvcalls⟩ := hbusy request w
    have hvcalm : v.isCanceled request.token = false := by
      rw [World.isCanceled, hvcanceled]
      exact calm
    rw [hclock] at hvcalls
    rw [← hvclock] at hclock
    rw [attempts_of_live (live_iff.mp hlive), Future.bind_of_gives hv, countAttempt_min]
    have hdone := hc.done_iff
    cases hd : cursor.step.1.done with
    | true =>
      rw [hd] at hdone
      obtain ⟨hpos, hle⟩ := hdone.mp rfl
      obtain ⟨hlast, rfl⟩ := h.last hk hpos hle
      rw [afterAttempt_of_done he hd]
      have hone : k + 1 - k = 1 := by omega
      refine ⟨0, _, _, Nat.zero_le _, .done _ _, hvpatience, ?_, ?_⟩
      · rw [callTimes_record rfl, hvcalls, hone]
        rfl
      · rw [Settles, if_pos ⟨hpos, hlast ▸ hearly⟩, ← hlast]
        exact ⟨hclock, e, he, rfl⟩
    | false =>
      rw [hd] at hdone
      have hretry : p.maxRetries.toNat = 0 ∨ k < p.maxRetries.toNat := by
        by_contra hno
        exact Bool.false_ne_true (hdone.mpr (by omega))
      have hdelay : cursor.step.1.delay.nanos = p.pause k := by
        rw [hc.delay_eq (Or.inr h.still), hc.current]
        rfl
      rw [afterAttempt_eq_backoff he hd]
      refine Ahead.before (v := v.record (backoffEvent request e (min (k + 1) attemptLimit)
        cursor.step.1.delay)) ?_ hk hvpatience ((callTimes_record rfl).trans hvcalls)
      exact backoff_ahead h hk hretry hdelay hclock hvcalm fun u hu huclock hucalm =>
        ih hc.step hu (by omega) huclock hucalm

/-! ### Whole calls -/

/-- Run alone in a world, a call makes `K` attempts at the offsets `T`. It ends with the last one,
given up, if the ceiling `N` is reached in time, and otherwise with the deadline. -/
def EndsOnTime (T : Nat → Nat) (N D K : Nat) (expired : String) (call : Future Outcome)
    (w : World) : Prop :=
  ∃ x v, Schedule.run none [] [call] w = ([some (.error x)], v) ∧
    callTimes v = callTimes w ++ (List.range K).map (fun k => w.clock.nanos + T k) ∧
    (0 < N ∧ T N < D → v.clock.nanos = w.clock.nanos + T N ∧
      ∃ e, e.isRateLimited = true ∧ x = .retriesExhausted (min (N + 1) (2 ^ 32 - 1)) e) ∧
    (¬ (0 < N ∧ T N < D) →
      v.clock.nanos = w.clock.nanos + D ∧ x = .deadlineExceeded expired)

/-- Bounds that expire with the call say only what it ends in. -/
theorem endsOnTime_of_ticks {call : Future Outcome} {expired : String} {n : Nat}
    {x : Option Outcome} (h : Timed p request limit w.clock.nanos D K)
    (hticks : (call w).1.Ticks request.token limit (.error (.deadlineExceeded expired)) n
      (call w).2 x v)
    (hn : 2 * n ≤ (call w).2.patience)
    (hcalls : callTimes v =
      callTimes w ++ (List.range K).map (fun k => w.clock.nanos + p.pauses k))
    (hsettles : Settles p limit w.clock.nanos D x v) :
    EndsOnTime (p.pauses) p.maxRetries.toNat D K expired call w := by
  have hrun := Schedule.run_of_ticks hticks hn
  unfold Settles at hsettles
  split at hsettles
  · rename_i hgiven
    obtain ⟨hclock, e, he, rfl⟩ := hsettles
    exact ⟨_, v, hrun, hcalls, fun _ => ⟨hclock, e, he, rfl⟩, fun hno => absurd hgiven hno⟩
  · rename_i hnot
    obtain ⟨rfl, rfl⟩ := hsettles
    exact ⟨_, v, hrun, hcalls, fun hgiven => absurd hgiven hnot, fun _ => ⟨h.limit, rfl⟩⟩

theorem Timed.le_followed (h : Timed p request limit start D K) (hpatience : K ≤ w.patience) :
    K ≤ followed p w := by
  unfold followed
  split
  · exact hpatience
  · rename_i hne
    have hpos : p.maxRetries.toNat ≠ 0 := fun h0 => hne (UInt32.toNat_inj.mp h0)
    have hbeyond := h.count (p.maxRetries.toNat + 1)
    omega

theorem cursor_stands (r : Retry) (w : World) : (r.cursor w).1.Stands r.policy 0 := by
  unfold cursor
  cases r.seed with
  | none => exact .ofSource _ _
  | some seed => exact .ofSource _ _

theorem wrapUnary_ahead (h : Timed r.policy request limit w.clock.nanos D K)
    (hsleep : r.sleep = Sleep.timer) (hbusy : Busy next) (hK : 0 < K)
    (hpatience : K ≤ w.patience) (calm : w.isCanceled request.token = false) :
    Ahead r.policy request limit w.clock.nanos D K K 0 w
      ((r.wrapUnary next).deferred request w) := by
  have hstands := cursor_stands r w
  obtain ⟨counters, entropy, hseeds⟩ := cursor_seeds r w
  have hfollow : K ≤ 0 + followed r.policy w := by
    rw [Nat.zero_add]
    exact h.le_followed hpatience
  rw [Unary.deferred, wrapUnary_eq, hsleep]
  dsimp only
  rw [hseeds]
  exact attempts_ahead (w := { w with counters, entropy }) h hbusy hstands hK hfollow rfl calm

/-- A call through the retries alone. -/
theorem wrapUnary_endsOnTime (h : Timed r.policy request limit w.clock.nanos D K)
    (hsleep : r.sleep = Sleep.timer) (hbusy : Busy next) (hK : 0 < K)
    (hpatience : 2 * K ≤ w.patience) (calm : w.isCanceled request.token = false) :
    EndsOnTime (r.policy.pauses) r.policy.maxRetries.toNat D K
      "deadline exceeded during backoff" ((r.wrapUnary next).deferred request) w := by
  obtain ⟨n, x, v, hn, hticks, hsame, hcalls, hsettles⟩ :=
    wrapUnary_ahead h hsleep hbusy hK (by omega) calm
  rw [Nat.sub_zero, ← List.range_eq_range'] at hcalls
  exact endsOnTime_of_ticks h hticks (by omega) hcalls hsettles

/-- A call through a client whose layers are the retries: its own deadline is the same instant, and
its timer is looked at first. -/
theorem unary_endsOnTime {c : Client} (h : Timed r.policy request limit w.clock.nanos D K)
    (hc : c.wrappedUnary = r.wrapUnary next) (hsleep : r.sleep = Sleep.timer) (hbusy : Busy next)
    (hK : 0 < K) (hpatience : 2 * K ≤ w.patience) (calm : w.isCanceled request.token = false) :
    EndsOnTime (r.policy.pauses) r.policy.maxRetries.toNat D K "deadline exceeded"
      (c.unary request) w := by
  let sent := { request with options := c.options }
  let opened := w.record (Client.callSpan request.procedure "unary")
  have hcalled : c.called request w = r.wrapUnary next sent opened := by
    rw [Client.called, hc]
  have htimed : Timed r.policy sent limit opened.clock.nanos D K :=
    ⟨h.still, h.deadline, h.limit, h.count⟩
  obtain ⟨n, x, v, hn, hticks, hsame, hcalls, hsettles⟩ :=
    wrapUnary_ahead htimed hsleep hbusy hK (by change K ≤ w.patience; omega) calm
  rw [Nat.sub_zero, ← List.range_eq_range', callTimes_record rfl] at hcalls
  have hunbroken : (Client.unaryBounds request).broken? (c.called request w).2 = none := by
    have hlive := htimed.live ((h.count 0).mpr hK).2 rfl calm
    obtain ⟨counters, entropy, hseeds⟩ := cursor_seeds r opened
    rw [hcalled, wrapUnary_eq, hseeds]
    exact Bounds.broken?_eq_none.mpr hlive
  have hbounded := Bounds.ticks_limit (f := (c.called request w).1)
    (b := Client.unaryBounds request) (by rw [hcalled]; exact hticks) hunbroken h.deadline
  have hworld : (c.unary request w).2.patience = w.patience := by
    rw [Client.unary_eq, Bounds.limit_of_unbroken hunbroken, hcalled]
    exact hsame
  exact endsOnTime_of_ticks h hbounded (by rw [hworld]; omega) hcalls hsettles

/-- Of a call whose attempts are all rejected at once, without jitter, attempt `k` is made exactly
when it is within the ceiling and `T k` comes before the timeout, and `T k` after the start. -/
theorem attempts_before_deadline (r : Retry) (next : Unary) (request sent : Request)
    (timeout : Duration) (w : World) (hsleep : r.sleep = Sleep.timer)
    (hjitter : r.policy.jitter.le 0 = true)
    (hmoves : 0 < r.policy.minDelay.nanos ∨ 0 < r.policy.maxRetries.toNat)
    (htimeout : 0 < timeout.nanos) (hsent : request.withTimeout? w.clock timeout = some sent)
    (hcalm : w.isCanceled request.token = false) (hbusy : Busy next) :
    let T := r.policy.pauses
    let N := r.policy.maxRetries.toNat
    let D := timeout.nanos
    ∃ K, 0 < K ∧ (∀ k, (N = 0 ∨ k ≤ N) ∧ T k < D ↔ k < K) ∧
      (2 * K ≤ w.patience →
        EndsOnTime T N D K "deadline exceeded during backoff"
          ((r.wrapUnary next).deferred sent) w ∧
        ∀ c : Client, c.wrappedUnary = r.wrapUnary next →
          EndsOnTime T N D K "deadline exceeded" (c.unary sent) w) := by
  intro T N D
  obtain ⟨limit, hlimit, rfl⟩ := Option.map_eq_some_iff.mp hsent
  have hlast : 0 < N ∨ ∃ k, D ≤ T k := by
    rcases hmoves with hmin | hmax
    · exact Or.inr ⟨D, BackoffPolicy.le_pauses hmin⟩
    · exact Or.inl hmax
  obtain ⟨K, hK, hcount⟩ := exists_count r.policy.monotone_pauses (htimeout : T 0 < D) hlast
  have htimed : Timed r.policy { request with deadline := some limit } limit w.clock.nanos D K :=
    ⟨hjitter, rfl, Instant.nanos_of_add? hlimit, hcount⟩
  refine ⟨K, hK, hcount, fun hpatience => ?_⟩
  exact ⟨wrapUnary_endsOnTime htimed hsleep hbusy hK hpatience hcalm,
    fun c hc => unary_endsOnTime htimed hc hsleep hbusy hK hpatience hcalm⟩

/-- A call that is received and rejected. -/
def rejecting : Unary := fun request w =>
  (fun w => (.done (.error (.rateLimited "busy")), w.record (.call 0 w.clock request)), w)

theorem busy_rejecting : Busy rejecting := by
  intro request w
  exact ⟨_, _, rfl, rfl, rfl, rfl, rfl, callTimes_record_call⟩

/-- Delays from a second on and a timeout of three: the third attempt would come with the
deadline, and is not made. -/
theorem attempts_before_deadline_tie :
    let r : Retry := ⟨⟨.ofSeconds 1, .zero, 0, 0⟩, none, Sleep.timer, 0⟩
    ∃ sent, (Request.ofBody "/p" ByteArray.empty 0).withTimeout? .start (.ofSeconds 3) = some sent ∧
      ∃ v, Schedule.run none [] [(r.wrapUnary rejecting).deferred sent] World.initial =
          ([some (.error (.deadlineExceeded "deadline exceeded during backoff"))], v) ∧
        callTimes v = [0, 1000000000] ∧ v.clock.nanos = 3000000000 := by
  intro r
  have hjitter : r.policy.jitter.le 0 = true := by decide +kernel
  obtain ⟨K, -, hcount, hruns⟩ := attempts_before_deadline r rejecting
    (Request.ofBody "/p" ByteArray.empty 0) _ (.ofSeconds 3) World.initial rfl hjitter
    (Or.inl (by decide)) (by decide) rfl rfl busy_rejecting
  have hK : K = 2 := by
    have hmade := (hcount 1).mp ⟨Or.inl rfl, by decide⟩
    have htie : ¬ 2 < K := fun hlt => absurd ((hcount 2).mpr hlt).2 (by decide)
    omega
  subst hK
  obtain ⟨x, v, hrun, hcalls, -, hlate⟩ := (hruns (by decide +kernel)).1
  obtain ⟨hclock, rfl⟩ := hlate fun hgiven => absurd hgiven.1 (by decide)
  exact ⟨_, rfl, v, hrun, hcalls.trans (by decide), hclock⟩

end Retry

end RpcPolicy
