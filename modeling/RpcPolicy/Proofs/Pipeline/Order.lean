import RpcPolicy.Proofs.Pipeline.Attempt
import RpcPolicy.Proofs.Retry.Rounds
/-! Whole calls through the layers of a configuration. Main statement: a call is a sequence of
attempts with one backoff between each and the next. -/

namespace RpcPolicy.Pipeline

variable {token : Token} {limiter : Option Limiter} {request : Request} {rs : List (Recorder token)}
  {v w : World} {S : World → Prop}

/-- The acts of attempts that were each followed by a backoff. -/
def rounds (limited : Bool) (rs : List (Recorder token)) (delay : Nat → Duration)
    (past : List Block) : List Act :=
  Retry.sequence (Block.acts limited rs) .sleep delay past

/-- Attempts that a limiter and a policy allow, each rejected by a rate limit. -/
structure Rejected (limiter : Option Limiter) (rs : List (Recorder token)) (past : List Block) :
    Prop where
  allowed : ∀ b ∈ past, b.Allowed limiter
  rejected : ∀ b ∈ past, isRejection (b.outcome rs) = true

variable {c : ClientConfig} {w₀ : World} {l : Limiter} {r : Retry}

theorem isSome_retry (c : ClientConfig) (w : World) :
    (UnaryPolicies.ofConfig c w).1.retry.isSome = c.retryOnRateLimit := by
  unfold UnaryPolicies.ofConfig
  cases c.retryOnRateLimit <;> cases (0 : Binary64).lt c.rate <;> rfl

theorem isSome_limiter (c : ClientConfig) (w : World) :
    (UnaryPolicies.ofConfig c w).1.limiter.isSome = (0 : Binary64).lt c.rate := by
  unfold UnaryPolicies.ofConfig
  cases c.retryOnRateLimit <;> cases (0 : Binary64).lt c.rate <;> rfl

theorem retry_ofConfig (hr : (UnaryPolicies.ofConfig c w).1.retry = some r) :
    r.policy = c.backoff ∧ r.sleep = Sleep.timer := by
  unfold UnaryPolicies.ofConfig at hr
  cases hflag : c.retryOnRateLimit with
  | false =>
    rw [hflag] at hr
    cases (0 : Binary64).lt c.rate <;> cases hr
  | true =>
    rw [hflag] at hr
    cases (0 : Binary64).lt c.rate <;> cases hr <;> exact ⟨rfl, rfl⟩

/-- A limiter of a configuration has its rate, and a full bucket of its own. -/
theorem limiter_ofConfig (hl : (UnaryPolicies.ofConfig c w).1.limiter = some l) :
    l.rate = c.rate ∧ (UnaryPolicies.ofConfig c w).2.buckets[l.place]? =
      some (.full c.rate c.burst w.clock) := by
  unfold UnaryPolicies.ofConfig at hl ⊢
  cases hrate : (0 : Binary64).lt c.rate with
  | false =>
    rw [hrate] at hl
    cases c.retryOnRateLimit <;> cases hl
  | true =>
    rw [hrate] at hl
    cases hflag : c.retryOnRateLimit with
    | false =>
      rw [hflag] at hl
      cases hl
      exact ⟨rfl, List.getElem?_concat_length⟩
    | true =>
      rw [hflag] at hl
      cases hl
      exact ⟨rfl, List.getElem?_concat_length⟩

theorem cursor_silent (r : Retry) (w : World) : Silent w (r.cursor w).2 := by
  unfold Retry.cursor
  cases r.seed with
  | none => exact .seeded w w.counters _
  | some seed => exact .seeded w _ w.entropy

theorem deferred_retry (next : Unary) (r : Retry) :
    (r.wrapUnary next).deferred request w =
      Retry.attempts next r.sleep request (Retry.followed r.policy w) 0 (r.cursor w).1
        (r.cursor w).2 := by
  rw [← Retry.followed_cursor]
  rfl

/-- The delays of a call that is made in a world: those of the cursor it takes there. -/
def delays (p : UnaryPolicies) (w : World) : Nat → Duration :=
  match p.retry with
  | none => fun _ => .zero
  | some r => (r.cursor w).1.delay

end RpcPolicy.Pipeline
