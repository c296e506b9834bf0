import RpcPolicy.Proofs.Call.Progress
import RpcPolicy.Proofs.Retry.Rounds
/-! The course of a retried call up to any look at it, whatever happens between looks. Main
statements: the attempts that have ended and the sleeps that were asked for, in order, tell what
the call has become; and the sleeps are those of its own cursor, one for each rejection as long as
a retry is left. -/

namespace RpcPolicy.Retry

/-- How many of the attempts among some acts a rate limit rejected. -/
def rejections (acts : List Act) : Nat := (outcomes acts).countP isRejection

/-- What is left of a pause when `p` is left of its sleep: the bounds still come first. -/
def dozing (request : Request) (p : Process Unit) (w : World) : Process (Except CallError Unit) :=
  (p.bind (fun _ => .ready (.ok ())) w).1.cutOff
    (fun v => ((backoffBounds request).broken? v).map .error) (backoffBounds request).wait

/-- What is left of a pause that begins in a world, and the world that the last look left. The
sleep is asked for its delay at once; the looks at it are those within the bounds. -/
inductive Nap (env : Environment) (sleep : Sleep) (request : Request) (delay : Duration)
    (w : World) : Process (Except CallError Unit) → World → Prop
  /-- The request is dead when the sleep has been asked for. -/
  | dead {e : CallError} (broken : (backoffBounds request).broken? (sleep delay w).2 = some e) :
      Nap env sleep request delay w (.done (.error e)) (sleep delay w).2
  /-- The sleep is still in progress. -/
  | asleep {v : World} {p : Process Unit}
      (live : (backoffBounds request).broken? (sleep delay w).2 = none)
      (goes : (sleep.begun delay).Becomes ((backoffBounds request).Within env) w p v)
      (pending : p.Pending) : Nap env sleep request delay w (dozing request p v) v
  /-- The request died during the sleep. -/
  | woken {u v : World} {p : Process Unit} {e : CallError}
      (live : (backoffBounds request).broken? (sleep delay w).2 = none)
      (goes : (sleep.begun delay).Becomes ((backoffBounds request).Within env) w p u)
      (pending : p.Pending) (act : env u v)
      (broken : (backoffBounds request).broken? v = some e) :
      Nap env sleep request delay w (.done (.error e)) v
  /-- The sleep went by. -/
  | slept {v : World} (live : (backoffBounds request).broken? (sleep delay w).2 = none)
      (ends : (sleep.begun delay).Ends ((backoffBounds request).Within env) w () v) :
      Nap env sleep request delay w (.done (.ok ())) v

/-- The course of a retried call: the attempts that have ended and the sleeps that were asked for,
what is left, and the world of the last look. The numbers are those followed and made. -/
inductive Course (env : Environment) (next : Unary) (sleep : Sleep) (request : Request) :
    Nat → Nat → Cursor → World → List Act → Process Outcome → World → Prop
  | unfollowed (made : Nat) (c : Cursor) (w : World) :
      Course env next sleep request 0 made c w [] .stuck w
  /-- The request is dead, and no attempt begins. -/
  | dead {follow made : Nat} {c : Cursor} {w : World} {e : CallError}
      (broken : (attemptBounds request).broken? w = some e) :
      Course env next sleep request (follow + 1) made c w [] (.done (.error e)) w
  /-- An attempt is still in progress. -/
  | attempting {follow made : Nat} {c : Cursor} {w v : World} {p : Process Outcome}
      (live : (attemptBounds request).broken? w = none)
      (goes : (next.deferred request).Becomes env w p v) (pending : p.Pending) :
      Course env next sleep request (follow + 1) made c w []
        (p.bind (afterAttempt sleep request (countAttempt made) c
          (attempts next sleep request follow (countAttempt made))) v).1 v
  /-- An attempt ended in what no rate limit rejected, and so does the call. -/
  | passed {follow made : Nat} {c : Cursor} {w v : World} {x : Outcome}
      (live : (attemptBounds request).broken? w = none)
      (ends : (next.deferred request).Ends env w x v) (accepted : isRejection x = false) :
      Course env next sleep request (follow + 1) made c w [.attempt x] (.done x) v
  /-- An attempt was rejected with no retry left. -/
  | exhausted {follow made : Nat} {c : Cursor} {w v : World} {e : CallError}
      (live : (attemptBounds request).broken? w = none)
      (ends : (next.deferred request).Ends env w (.error e) v) (rejected : e.isRateLimited = true)
      (last : c.step.1.done = true) :
      Course env next sleep request (follow + 1) made c w [.attempt (.error e)]
        (.done (.error (.retriesExhausted (countAttempt made) e)))
        (v.record (exhaustedEvent request e (countAttempt made)))
  /-- A backoff is still in progress. -/
  | pausing {follow made : Nat} {c : Cursor} {w u v : World} {e : CallError}
      {p : Process (Except CallError Unit)} (live : (attemptBounds request).broken? w = none)
      (ends : (next.deferred request).Ends env w (.error e) u) (rejected : e.isRateLimited = true)
      (more : c.step.1.done = false)
      (nap : Nap env sleep request c.step.1.delay
        (u.record (backoffEvent request e (countAttempt made) c.step.1.delay)) p v)
      (pending : p.Pending) :
      Course env next sleep request (follow + 1) made c w
        [.attempt (.error e), .nap c.step.1.delay]
        (p.bind (afterPause
          (attempts next sleep request follow (countAttempt made) c.step.2)) v).1 v
  /-- The request died during a backoff. -/
  | interrupted {follow made : Nat} {c : Cursor} {w u v : World} {e e' : CallError}
      (live : (attemptBounds request).broken? w = none)
      (ends : (next.deferred request).Ends env w (.error e) u) (rejected : e.isRateLimited = true)
      (more : c.step.1.done = false)
      (nap : Nap env sleep request c.step.1.delay
        (u.record (backoffEvent request e (countAttempt made) c.step.1.delay))
        (.done (.error e')) v) :
      Course env next sleep request (follow + 1) made c w
        [.attempt (.error e), .nap c.step.1.delay] (.done (.error e')) v
  /-- A backoff went by, and the call goes on. -/
  | again {follow made : Nat} {c : Cursor} {w u u' v : World} {e : CallError} {acts : List Act}
      {q : Process Outcome} (live : (attemptBounds request).broken? w = none)
      (ends : (next.deferred request).Ends env w (.error e) u) (rejected : e.isRateLimited = true)
      (more : c.step.1.done = false)
      (nap : Nap env sleep request c.step.1.delay
        (u.record (backoffEvent request e (countAttempt made) c.step.1.delay)) (.done (.ok ())) u')
      (rest : Course env next sleep request follow (countAttempt made) c.step.2 u' acts q v) :
      Course env next sleep request (follow + 1) made c w
        (.attempt (.error e) :: .nap c.step.1.delay :: acts) q v

variable {env R : Environment} {next : Unary} {sleep : Sleep} {request : Request}
  {follow made : Nat} {c : Cursor} {acts : List Act} {q : Process Outcome} {u v w : World}

/-! ### Every call takes its course -/

variable {delay : Duration} {p : Process (Except CallError Unit)}

theorem pause_of_broken {e : CallError}
    (broken : (backoffBounds request).broken? (sleep delay w).2 = some e) :
    pause sleep request delay w = (.done (.error e), (sleep delay w).2) :=
  Bounds.limit_of_broken broken

theorem pause_of_live (live : (backoffBounds request).broken? (sleep delay w).2 = none) :
    pause sleep request delay w =
      let slept := Future.bind (sleep.begun delay) (fun _ => .ready (.ok ())) w
      (slept.1.cutOff (fun v => ((backoffBounds request).broken? v).map .error)
        (backoffBounds request).wait, slept.2) :=
  Bounds.limit_of_unbroken live

theorem Nap.of_becomes (h : (pause sleep request delay).Becomes env w p v) :
    Nap env sleep request delay w p v := by
  unfold Future.Becomes at h
  cases hb : (backoffBounds request).broken? (sleep delay w).2 with
  | some e =>
    rw [pause_of_broken hb] at h
    obtain ⟨rfl, rfl⟩ := Process.becomes_of_done h
    exact .dead hb
  | none =>
    rw [pause_of_live hb] at h
    rcases Process.becomes_cutOff.mp h with
      ⟨rest, hrest, rfl⟩ | ⟨rest, u, e, hrest, hpending, act, hbroken, rfl⟩
    · rcases Future.becomes_bind.mp hrest with ⟨q, hq, hpending, rfl⟩ | ⟨⟨⟩, u, hends, hdone⟩
      · exact .asleep hb hq hpending
      · obtain ⟨rfl, rfl⟩ := Future.becomes_ready.mp hdone
        rw [Process.cutOff_done]
        exact .slept hb hends
    · rcases Future.becomes_bind.mp hrest with ⟨q, hq, hasleep, rfl⟩ | ⟨⟨⟩, u', hends, hdone⟩
      · exact .woken hb hq hasleep act hbroken
      · obtain ⟨rfl, rfl⟩ := Future.becomes_ready.mp hdone
        exact (hpending _ rfl).elim

/-- Nothing else becomes of a pause. -/
theorem Nap.becomes (h : Nap env sleep request delay w p v) :
    (pause sleep request delay).Becomes env w p v := by
  unfold Future.Becomes
  cases h with
  | dead broken =>
    rw [pause_of_broken broken]
    exact .same _ _
  | asleep live goes pending =>
    rw [pause_of_live live]
    exact Process.becomes_cutOff.mpr (Or.inl
      ⟨_, Future.becomes_bind.mpr (Or.inl ⟨_, goes, pending, rfl⟩), rfl⟩)
  | woken live goes pending act broken =>
    rw [pause_of_live live]
    exact Process.becomes_cutOff.mpr (Or.inr
      ⟨_, _, _, Future.becomes_bind.mpr (Or.inl ⟨_, goes, pending, rfl⟩),
        Process.pending_bind pending _ _, act, broken, rfl⟩)
  | slept live ends =>
    have hdone : (Future.bind (sleep.begun delay) fun _ =>
        .ready (.ok () : Except CallError Unit)).Becomes ((backoffBounds request).Within env)
        w (.done (.ok ())) v :=
      Future.becomes_bind.mpr (Or.inr ⟨_, _, ends, Future.becomes_ready.mpr ⟨rfl, rfl⟩⟩)
    rw [pause_of_live live]
    exact Process.becomes_cutOff.mpr (Or.inl ⟨_, hdone, (Process.cutOff_done _ _ _).symm⟩)

/-- What an attempt that has ended goes on as, if `again` tells the course of the attempts after
it. -/
theorem course_of_ended {x : Outcome} (live : (attemptBounds request).broken? w = none)
    (ends : (next.deferred request).Ends env w x u)
    (again : ∀ c w, (attempts next sleep request follow (countAttempt made) c).Becomes env w q v →
      ∃ acts, Course env next sleep request follow (countAttempt made) c w acts q v)
    (h : (afterAttempt sleep request (countAttempt made) c
      (attempts next sleep request follow (countAttempt made)) x).Becomes env u q v) :
    ∃ acts, Course env next sleep request (follow + 1) made c w acts q v := by
  cases hr : isRejection x with
  | false =>
    rw [afterAttempt_of_passed hr] at h
    obtain ⟨rfl, rfl⟩ := Future.becomes_ready.mp h
    exact ⟨_, .passed live ends hr⟩
  | true =>
    obtain ⟨e, rfl⟩ : ∃ e, x = .error e := by
      cases x with
      | ok response => cases hr
      | error e => exact ⟨e, rfl⟩
    cases hd : c.step.1.done with
    | true =>
      rw [afterAttempt_of_done hr hd] at h
      obtain ⟨rfl, rfl⟩ := Process.becomes_of_done h
      exact ⟨_, .exhausted live ends hr hd⟩
    | false =>
      rw [afterAttempt_of_retry hr hd] at h
      rcases Future.becomes_bind.mp h with ⟨p, hp, hpending, rfl⟩ | ⟨y, u', hy, hrest⟩
      · exact ⟨_, .pausing live ends hr hd (.of_becomes hp) hpending⟩
      · have hnap := Nap.of_becomes (Process.becomes_done_iff.mpr hy)
        cases y with
        | ok _ =>
          obtain ⟨acts, hacts⟩ := again c.step.2 u' hrest
          exact ⟨_, .again live ends hr hd hnap hacts⟩
        | error e' =>
          obtain ⟨rfl, rfl⟩ := Future.becomes_ready.mp hrest
          exact ⟨_, .interrupted live ends hr hd hnap⟩

theorem exists_course (h : (attempts next sleep request follow made c).Becomes env w q v) :
    ∃ acts, Course env next sleep request follow made c w acts q v := by
  -- On the attempts that are followed; the later ones are made from another cursor and world.
  induction follow generalizing made c w with
  | zero =>
    cases h
    exact ⟨[], .unfollowed made c w⟩
  | succ follow ih =>
    cases hb : (attemptBounds request).broken? w with
    | some e =>
      have hover := h.of_eq (g := .ready (.error e)) (u := w) (attempts_of_dead hb)
      obtain ⟨rfl, rfl⟩ := Future.becomes_ready.mp hover
      exact ⟨[], .dead hb⟩
    | none =>
      have hround := h.of_eq (attempts_of_live hb)
      rcases Future.becomes_bind.mp hround with ⟨p, hp, hpending, rfl⟩ | ⟨x, u, hx, hrest⟩
      · exact ⟨[], .attempting hb hp hpending⟩
      · exact course_of_ended hb hx (fun _ _ => ih) hrest

/-- Another attempt's end, taken up where the loop goes on. -/
theorem becomes_of_ended {x : Outcome} (live : (attemptBounds request).broken? w = none)
    (ends : (next.deferred request).Ends env w x u)
    (rest : (afterAttempt sleep request (countAttempt made) c
      (attempts next sleep request follow (countAttempt made)) x).Becomes env u q v) :
    (attempts next sleep request (follow + 1) made c).Becomes env w q v := by
  have hround : (Future.bind (next.deferred request) (afterAttempt sleep request
      (countAttempt made) c (attempts next sleep request follow (countAttempt made)))).Becomes
      env w q v := Future.becomes_bind.mpr (Or.inr ⟨x, u, ends, rest⟩)
  exact hround.of_eq (attempts_of_live live).symm

/-- No other course leads anywhere. -/
theorem Course.becomes (h : Course env next sleep request follow made c w acts q v) :
    (attempts next sleep request follow made c).Becomes env w q v := by
  induction h with
  | unfollowed made c w => exact .same .stuck w
  | @dead _ _ _ w e broken =>
    have hover : (Future.ready (.error e : Outcome)).Becomes env w (.done (.error e)) w :=
      Future.becomes_ready.mpr ⟨rfl, rfl⟩
    exact hover.of_eq (attempts_of_dead broken).symm
  | attempting live goes pending =>
    refine Future.Becomes.of_eq ?_ (attempts_of_live live).symm
    exact Future.becomes_bind.mpr (Or.inl ⟨_, goes, pending, rfl⟩)
  | passed live ends accepted =>
    refine becomes_of_ended live ends ?_
    rw [afterAttempt_of_passed accepted]
    exact Future.becomes_ready.mpr ⟨rfl, rfl⟩
  | exhausted live ends rejected last =>
    refine becomes_of_ended live ends ?_
    rw [afterAttempt_of_done rejected last]
    exact .same _ _
  | pausing live ends rejected more nap pending =>
    refine becomes_of_ended live ends ?_
    rw [afterAttempt_of_retry rejected more]
    exact Future.becomes_bind.mpr (Or.inl ⟨_, nap.becomes, pending, rfl⟩)
  | interrupted live ends rejected more nap =>
    have hbroken := Process.becomes_done_iff.mp nap.becomes
    refine becomes_of_ended live ends ?_
    rw [afterAttempt_of_retry rejected more]
    exact Future.becomes_bind.mpr
      (Or.inr ⟨_, _, hbroken, Future.becomes_ready.mpr ⟨rfl, rfl⟩⟩)
  | again live ends rejected more nap _ ih =>
    have hslept := Process.becomes_done_iff.mp nap.becomes
    refine becomes_of_ended live ends ?_
    rw [afterAttempt_of_retry rejected more]
    exact Future.becomes_bind.mpr (Or.inr ⟨_, _, hslept, ih⟩)

/-! ### What a course tells -/

theorem take_of_done (h : c.step.1.done = true) (n : Nat) : (c.take n).1 = [] := by
  cases n with
  | zero => rfl
  | succ n => simp only [Cursor.take, Cursor.next, h, if_true]

theorem take_of_more (h : c.step.1.done = false) (n : Nat) :
    (c.take (n + 1)).1 = c.step.1.delay :: (c.step.2.take n).1 := by
  simp only [Cursor.take, Cursor.next, h, Bool.false_eq_true, if_false]

theorem rejections_rejected {e : CallError} (h : e.isRateLimited = true) (delay : Duration)
    (acts : List Act) :
    rejections (.attempt (.error e) :: .nap delay :: acts) = rejections acts + 1 := by
  have hacts : outcomes (.attempt (.error e) :: .nap delay :: acts) =
      .error e :: outcomes acts := rfl
  have hr : isRejection (.error e) = true := h
  rw [rejections, hacts, List.countP_cons_of_pos hr, rejections]

/-- The sleeps of a call are what its cursor gives away first: a delay for each rejection, as long
as a retry is left. -/
theorem Course.delays (h : Course env next sleep request follow made c w acts q v) :
    delays acts = (c.take (rejections acts)).1 := by
  induction h with
  | unfollowed => rfl
  | dead => rfl
  | attempting => rfl
  | @passed _ _ _ _ _ x _ _ accepted =>
    have hnone : rejections [.attempt x] = 0 := by
      simp [rejections, outcomes, Act.outcome?, accepted]
    rw [hnone]
    rfl
  | exhausted _ _ _ last =>
    rw [take_of_done last]
    rfl
  | pausing _ _ rejected more =>
    rw [rejections_rejected rejected, take_of_more more]
    rfl
  | interrupted _ _ rejected more =>
    rw [rejections_rejected rejected, take_of_more more]
    rfl
  | again _ _ rejected more _ _ ih =>
    rw [rejections_rejected rejected, take_of_more more, ← ih]
    rfl

/-- Asking for a sleep keeps to a relation of worlds, and so does waiting for it. -/
structure SleepKeeps (R : Environment) (sleep : Sleep) : Prop where
  asked : ∀ delay w, R w (sleep delay w).2
  nap : ∀ delay w, (sleep delay w).1.Keeps R

section Keeping

variable (hrefl : ∀ w, R w w) (htrans : ∀ {u v w}, R u v → R v w → R u w)
  (htold : ∀ w e, R w (w.record e)) (hsleep : SleepKeeps R sleep)
  (hnext : (next.deferred request).Keeps R)

include hrefl in
theorem timer_keeps : SleepKeeps R Sleep.timer where
  asked _ w := hrefl w
  nap _ _ := Future.sleepUntil_keeps hrefl _

include hrefl htold in
theorem recorded_keeps : SleepKeeps R Sleep.recorded where
  asked _ _ := htold _ _
  nap _ _ := Future.keeps_ready hrefl ()

include hrefl htrans hsleep in
theorem pause_keeps (request : Request) (delay : Duration) :
    (pause sleep request delay).Keeps R := by
  intro w q v h
  have hslept : (Future.bind (sleep delay w).1
      fun _ => Future.ready (Except.ok () : Except CallError Unit)).Keeps R :=
    (hsleep.nap delay w).bind htrans fun _ => Future.keeps_ready hrefl _
  exact htrans (hsleep.asked delay w) (hslept.limit hrefl htrans (backoffBounds request) _ q v h)

include hrefl htrans htold hsleep hnext in
/-- A call keeps to what its attempts and its sleeps keep to. -/
theorem Course.keeps (h : Course R next sleep request follow made c w acts q v) : R w v := by
  have hpause : ∀ delay, (pause sleep request delay).Keeps R :=
    pause_keeps hrefl htrans hsleep request
  induction h with
  | unfollowed _ _ w => exact hrefl w
  | @dead _ _ _ w => exact hrefl w
  | attempting _ goes _ => exact hnext _ _ _ goes
  | passed _ ends _ => exact hnext.of_ends ends
  | exhausted _ ends _ _ => exact htrans (hnext.of_ends ends) (htold _ _)
  | pausing _ ends _ _ nap _ =>
    exact htrans (hnext.of_ends ends) (htrans (htold _ _) (hpause _ _ _ _ nap.becomes))
  | interrupted _ ends _ _ nap =>
    exact htrans (hnext.of_ends ends) (htrans (htold _ _) (hpause _ _ _ _ nap.becomes))
  | again _ ends _ _ nap _ ih =>
    have hround := htrans (htold _ _) (hpause _ _ _ _ nap.becomes)
    exact htrans (hnext.of_ends ends) (htrans hround ih)

include hrefl htrans htold hsleep hnext in
theorem attempts_keep (follow made : Nat) (c : Cursor) :
    (attempts next sleep request follow made c).Keeps R := by
  intro w q v h
  obtain ⟨acts, hacts⟩ := exists_course h
  exact hacts.keeps hrefl htrans htold hsleep hnext

end Keeping

end RpcPolicy.Retry
