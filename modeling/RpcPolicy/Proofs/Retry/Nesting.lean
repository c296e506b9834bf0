import RpcPolicy.Proofs.Retry.Rounds
import RpcPolicy.Proofs.Retry.Stages
/-! Retries around retries. Main statement: the outer ones pass on what the inner ones do, so that
attempts do not multiply. It rests on no retried call ending in a rejection, whatever the calls
and the sleeps below it do. -/

namespace RpcPolicy

variable {α β : Type} {P : α → Prop}

/-! ### What work may end in -/

/-- However a process goes on, it ends in a result with a property, if it ends. -/
inductive Process.Yields (P : α → Prop) : Process α → Prop
  | done {a : α} (result : P a) : Yields P (.done a)
  | waiting {on : Wait} {resume : World → Process α × World}
      (rest : ∀ w, Yields P (resume w).1) : Yields P (.waiting on resume)
  | stuck : Yields P .stuck

/-- Wherever some work is looked at, it ends in a result with a property, if it ends. -/
def Future.Yields (P : α → Prop) (f : Future α) : Prop :=
  ∀ w, (f w).1.Yields P

namespace Process.Yields

variable {p : Process α} {k : α → Future α} {stop : World → Option α} {wake : Wait}

/-- Composed work ends in what its second part may end in. -/
theorem bind {R : β → Prop} {k : α → Future β} (h : p.Yields P)
    (hk : ∀ a, P a → (k a).Yields R) : Future.Yields R (p.bind k) := by
  induction h with
  | done result =>
    rw [bind_done]
    exact hk _ result
  | waiting _ ih =>
    intro w
    rw [bind_waiting]
    exact .waiting fun v => ih v _
  | stuck =>
    intro w
    rw [bind_stuck]
    exact .stuck

theorem cutOff (h : p.Yields P) (hstop : ∀ w a, stop w = some a → P a) :
    (p.cutOff stop wake).Yields P := by
  induction h with
  | done result =>
    rw [cutOff_done]
    exact .done result
  | waiting _ ih =>
    rw [cutOff_waiting]
    refine .waiting fun w => ?_
    cases hs : stop w with
    | some a => exact .done (hstop w a hs)
    | none => exact ih w
  | stuck =>
    rw [cutOff_stuck]
    refine .waiting fun w => ?_
    cases hs : stop w with
    | some a => exact .done (hstop w a hs)
    | none => exact .stuck

/-- Further work that passes on every result there can be does not show. -/
theorem bind_eq (h : p.Yields P) (hk : ∀ a, P a → k a = .ready a) (w : World) :
    p.bind k w = (p, w) := by
  induction h generalizing w with
  | @done a result =>
    rw [bind_done, hk a result]
    rfl
  | waiting _ ih =>
    rw [bind_waiting]
    simp only [ih]
  | stuck => rw [bind_stuck]

end Process.Yields

namespace Future.Yields

variable {f : Future α}

theorem ready {a : α} (h : P a) : (Future.ready a).Yields P := fun _ => .done h

theorem any (f : Future α) : f.Yields fun _ => True := by
  intro w
  generalize (f w).1 = p
  induction p using Process.induct with
  | done a => exact .done trivial
  | waiting on resume ih => exact .waiting ih
  | stuck => exact .stuck

theorem bind {R : β → Prop} {k : α → Future β} (h : f.Yields P)
    (hk : ∀ a, P a → (k a).Yields R) : (Future.bind f k).Yields R :=
  fun w => (h w).bind hk _

/-- Bounded work ends in what it may end in without the bounds, or is canceled or expires. -/
theorem limit {f : Future (Except CallError α)} {P : Except CallError α → Prop} {b : Bounds}
    (h : f.Yields P) (hb : ∀ w e, b.broken? w = some e → P (.error e)) : (b.limit f).Yields P := by
  intro w
  cases he : b.broken? w with
  | some e =>
    rw [Bounds.limit_of_broken he]
    exact .done (hb w e he)
  | none =>
    rw [Bounds.limit_of_unbroken he]
    refine (h w).cutOff fun v x hx => ?_
    obtain ⟨e, he, rfl⟩ := Option.map_eq_some_iff.mp hx
    exact hb v e he

end Future.Yields

namespace Retry

variable {next : Unary} {sleep : Sleep} {request : Request} {made follow : Nat} {cursor : Cursor}
  {outer inner : Retry} {e : CallError} {w : World}

/-! ### How retried calls end -/

/-- Neither cancellation nor expiry is a rejection. -/
theorem isRateLimited_of_broken {b : Bounds} (h : b.broken? w = some e) :
    e.isRateLimited = false := by
  unfold Bounds.broken? at h
  split at h
  · cases h
    rfl
  · split at h
    · cases h
      rfl
    · cases h

theorem pause_yields (sleep : Sleep) (request : Request) (delay : Duration) :
    (pause sleep request delay).Yields fun y => ∀ e, y = .error e → e.isRateLimited = false := by
  intro w
  have hslept : (Future.bind (sleep delay w).1 fun _ => Future.ready (Except.ok ())).Yields
      fun y : Except CallError Unit => ∀ e, y = .error e → e.isRateLimited = false :=
    (Future.Yields.any _).bind fun _ _ => .ready fun _ hy => nomatch hy
  refine hslept.limit (b := backoffBounds request) ?_ _
  rintro v e he _ ⟨⟩
  exact isRateLimited_of_broken he

theorem afterAttempt_yields {again : Cursor → Future Outcome}
    (h : ∀ cursor, (again cursor).Yields fun x => isRejection x = false) (x : Outcome) :
    (afterAttempt sleep request made cursor again x).Yields fun x => isRejection x = false := by
  cases hr : isRejection x with
  | false =>
    rw [afterAttempt_of_passed hr]
    exact .ready hr
  | true =>
    obtain ⟨e, rfl⟩ : ∃ e, x = .error e := by
      cases x with
      | ok response => cases hr
      | error e => exact ⟨e, rfl⟩
    cases hd : cursor.step.1.done with
    | true =>
      rw [afterAttempt_of_done hr hd]
      exact fun w => .done rfl
    | false =>
      rw [afterAttempt_of_retry hr hd]
      intro w
      refine (pause_yields sleep request cursor.step.1.delay).bind ?_ _
      intro y hy
      cases y with
      | ok _ => exact h cursor.step.2
      | error e => exact .ready (hy e rfl)

/-- No retried call ends in a rejection: a call that was given up counts as none. -/
theorem attempts_yields (next : Unary) (sleep : Sleep) (request : Request) (follow made : Nat)
    (cursor : Cursor) :
    (attempts next sleep request follow made cursor).Yields fun x => isRejection x = false := by
  induction follow generalizing made cursor with
  | zero => exact fun _ => .stuck
  | succ follow ih =>
    intro w
    cases hb : (attemptBounds request).broken? w with
    | some e =>
      rw [attempts_of_dead hb]
      exact .done (isRateLimited_of_broken hb)
    | none =>
      rw [attempts_of_live hb]
      refine (Future.Yields.any (next.deferred request)).bind (fun x _ => ?_) w
      exact afterAttempt_yields (fun cursor => ih _ cursor) x

/-! ### Nested retries -/

/-- While the request is live, retries around a retried call make it once and pass on its
outcome. -/
theorem attempts_nested (hw : Live request w) :
    attempts (inner.wrapUnary next) sleep request (follow + 1) made cursor w =
      (inner.wrapUnary next).deferred request w := by
  rw [attempts_of_live (live_iff.mp hw), Future.bind, Unary.deferred, wrapUnary_eq]
  exact (attempts_yields next inner.sleep request _ 0 (inner.cursor w).1 _).bind_eq
    (fun x hx => afterAttempt_of_passed hx) _

/-- Counters of their own do not show to each other. -/
theorem cursor_apart (hseed : inner.seed.isSome = true)
    (hplace : outer.seed.isSome = true → outer.place ≠ inner.place) (w : World) :
    (inner.cursor (outer.cursor w).2).1 = (inner.cursor w).1 := by
  obtain ⟨seed, hinner⟩ := Option.isSome_iff_exists.mp hseed
  cases houter : outer.seed with
  | none => simp only [cursor, hinner, houter, World.count, World.nextSeed]
  | some s =>
    have hne := hplace (by rw [houter]; rfl)
    have hkept : (w.counters.modify outer.place (· + 1))[inner.place]? =
        w.counters[inner.place]? := List.getElem?_modify_ne _ _ hne
    simp only [cursor, hinner, houter, World.count]
    rw [hkept]

theorem exists_followed (policy : BackoffPolicy) (hw : 0 < w.patience) :
    ∃ n, followed policy w = n + 1 := by
  unfold followed
  split
  · exact Nat.exists_eq_succ_of_ne_zero (Nat.pos_iff_ne_zero.mp hw)
  · exact ⟨_, rfl⟩

/-- Made through two layers of retries, a live call takes a cursor for the outer one and then goes
on as the inner layer alone does; a dead one ends as the inner layer alone does. -/
theorem wrapUnary_nested (outer inner : Retry) (next : Unary) (request : Request) (w₀ w : World)
    (h₀ : 0 < w₀.patience) (hw : 0 < w.patience) :
    (∃ counters entropy, (outer.wrapUnary (inner.wrapUnary next) request w₀).2 =
      { w₀ with counters, entropy }) ∧
    (Live request w →
      (outer.wrapUnary (inner.wrapUnary next) request w₀).1 w =
        (inner.wrapUnary next).deferred request w ∧
      ∀ w₁, w₁.patience = w.patience → (inner.cursor w₁).1 = (inner.cursor w).1 →
        (outer.wrapUnary (inner.wrapUnary next) request w₀).1 w =
          (inner.wrapUnary next request w₁).1 (inner.cursor w).2) ∧
    (¬ Live request w → ∀ w₁, w₁.patience = w.patience →
      (outer.wrapUnary (inner.wrapUnary next) request w₀).1 w =
        (inner.wrapUnary next request w₁).1 w) ∧
    (inner.seed.isSome = true → (outer.seed.isSome = true → outer.place ≠ inner.place) →
      (inner.cursor (outer.wrapUnary (inner.wrapUnary next) request w₀).2).1 =
        (inner.cursor w₀).1) := by
  obtain ⟨follow, hfollow⟩ := exists_followed outer.policy h₀
  rw [wrapUnary_eq outer, hfollow]
  refine ⟨cursor_seeds outer w₀, ?live, ?dead, fun hseed hplace => cursor_apart hseed hplace w₀⟩
  case live =>
    intro hlive
    dsimp only
    rw [attempts_nested hlive]
    refine ⟨rfl, fun w₁ hpatience hcursor => ?_⟩
    have hsame : followed inner.policy w₁ = followed inner.policy w := by
      unfold followed
      rw [hpatience]
    rw [Unary.deferred, wrapUnary_eq, wrapUnary_eq, hsame, hcursor]
  case dead =>
    intro hdead w₁ hpatience
    obtain ⟨n, hn⟩ := exists_followed inner.policy (hpatience ▸ hw : 0 < w₁.patience)
    obtain ⟨e, he⟩ : ∃ e, (attemptBounds request).broken? w = some e :=
      Option.ne_none_iff_exists'.mp fun hnone => hdead (live_iff.mpr hnone)
    rw [wrapUnary_eq inner, hn]
    dsimp only
    rw [attempts_of_dead he, attempts_of_dead he]

/-- Two seeded layers that count apart, the inner one without a ceiling. -/
theorem wrapUnary_nested_apart :
    let outer : Retry := ⟨{ BackoffPolicy.standard with maxRetries := 3 }, some 1, Sleep.timer, 0⟩
    let inner : Retry := ⟨{ BackoffPolicy.standard with maxRetries := 0 }, some 2, Sleep.timer, 1⟩
    let request := Request.ofBody "/p" ByteArray.empty 0
    let w := { World.initial with counters := [0, 0] }
    ∀ next : Unary, (outer.wrapUnary (inner.wrapUnary next) request w).1 w =
      (inner.wrapUnary next).deferred request w ∧
      (inner.cursor (outer.wrapUnary (inner.wrapUnary next) request w).2).1 =
        (inner.cursor w).1 := by
  intro outer inner request w next
  have hlive : Live request w := ⟨rfl, rfl⟩
  have hpatience : 0 < w.patience := Nat.two_pow_pos 64
  obtain ⟨-, hnested, -, hapart⟩ :=
    wrapUnary_nested outer inner next request w w hpatience hpatience
  exact ⟨(hnested hlive).1, hapart rfl fun _ => by decide⟩

end Retry

end RpcPolicy
