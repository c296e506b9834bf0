import RpcPolicy.Proofs.Call.Looks
import RpcPolicy.Proofs.Retry.Loop
/-! Retried calls as blocks of acts, one for each attempt. Main statement: all runs of a call that
nothing cuts short are blocks with one sleep between each and the next. -/

namespace RpcPolicy.Retry

variable {A B : Type}

/-- The acts of blocks that were each followed by a sleep. -/
def sequence (acts : B → List A) (nap : Duration → A) (delay : Nat → Duration)
    (past : List B) : List A :=
  past.zipIdx.flatMap fun b => acts b.1 ++ [nap (delay b.2)]

theorem sequence_concat (acts : B → List A) (nap : Duration → A) (delay : Nat → Duration)
    (past : List B) (b : B) :
    sequence acts nap delay (past ++ [b]) =
      sequence acts nap delay past ++ acts b ++ [nap (delay past.length)] := by
  simp [sequence, List.zipIdx_append]

/-- Blocks that are each fair in their place, and rejected by a rate limit. -/
inductive Rejected (fair : Nat → B → Prop) (outcome : B → Outcome) : List B → Prop
  | nil : Rejected fair outcome []
  | concat {past : List B} {b : B} (before : Rejected fair outcome past)
      (next : fair past.length b) (rejected : isRejection (outcome b) = true) :
      Rejected fair outcome (past ++ [b])

/-- How a call may end with the outcome of the attempt after `n` backoffs: with an outcome that no
rate limit rejected, or with a rejection after which no retry is permitted. -/
def EndsWith (policy : BackoffPolicy) (n : Nat) (outcome x : Outcome) : Prop :=
  (isRejection outcome = false ∧ x = outcome) ∨
    ¬ policy.Permits n ∧ ∃ e, outcome = .error e ∧ e.isRateLimited = true ∧
      x = .error (.retriesExhausted (min (n + 1) attemptLimit) e)

variable {env : Environment} {next : Unary} {sleep : Sleep} {request : Request} {c : Cursor}
  {w : World}

/-- If an attempt does what a fair block says, and a sleep what its act says, then a call does what
a sequence of blocks says; `G` is what both keep of the world. -/
theorem attempts_blocks (silent : Environment) (does : A → World → World → Prop)
    (acts : B → List A) (nap : Duration → A) (outcome : B → Outcome) (fair : Nat → B → Prop)
    (G : World → Prop) (hc : c.Fresh) (hd : request.deadline = none)
    (looks : ∀ u v, env u v → v.isCanceled request.token = false)
    (calm : ∀ v, G v → v.isCanceled request.token = false)
    (told : ∀ v level message fields, G v →
      G (v.record (.event level message fields)) ∧
        silent v (v.record (.event level message fields)))
    (attempt : ∀ past v, G v → Rejected fair outcome past →
      Trace silent does (sequence acts nap c.delay past) w v →
      (next.deferred request).Completes env v
        (fun x u => G u ∧ ∃ b, fair past.length b ∧ x = outcome b ∧
          Trace silent does (acts b) v u)
        fun _ => False)
    (asleep : ∀ past b v, G v →
      Trace silent does (sequence acts nap c.delay past ++ acts b) w v →
      (sleep (c.delay past.length) v).2.isCanceled request.token = false ∧
        (sleep.begun (c.delay past.length)).Completes env v
          (fun _ u => G u ∧ does (nap (c.delay past.length)) v u) fun _ => False)
    (start : G w) (follow : Nat) :
    (attempts next sleep request follow 0 c).Completes env w
      (fun x v => ∃ past last, Rejected fair outcome past ∧ fair past.length last ∧
        (∀ i < past.length, c.policy.Permits i) ∧
        EndsWith c.policy past.length (outcome last) x ∧
        Trace silent does (sequence acts nap c.delay past ++ acts last) w v)
      (fun v => ∃ past, past.length = follow ∧ Rejected fair outcome past ∧
        (∀ i < past.length, c.policy.Permits i) ∧
        Trace silent does (sequence acts nap c.delay past) w v) := by
  have unbroken : ∀ {s t v}, v.isCanceled request.token = false →
      (Bounds.mk request.token s request.deadline t).broken? v = none := by
    intro s t v hv
    rw [hd]
    exact Bounds.broken?_eq_none.mpr ⟨hv, rfl⟩
  refine attempts_complete (n := 0)
    (I := fun n v => G v ∧ ∃ past, past.length = n ∧ Rejected fair outcome past ∧
      (∀ i < past.length, c.policy.Permits i) ∧
      Trace silent does (sequence acts nap c.delay past) w v)
    (J := fun n e v => G v ∧ ∃ past last, past.length = n ∧ Rejected fair outcome past ∧
      (∀ i < past.length, c.policy.Permits i) ∧ fair past.length last ∧
      outcome last = .error e ∧ e.isRateLimited = true ∧
      Trace silent does (sequence acts nap c.delay past ++ acts last) w v)
    hc ?bounds ?live ?attempt ?exhausted ?backoff ?unfollowed ?start
  case bounds =>
    intro u v hv
    exact unbroken (looks u v hv)
  case live =>
    intro n v hv
    exact unbroken (calm v hv.1)
  case attempt =>
    rintro n v ⟨hv, past, hlen, hrejected, hpermits, hpast⟩
    refine (attempt past v hv hrejected hpast).mono ?_ fun _ hs => hs.elim
    rintro _ u ⟨hu, last, hfair, rfl, hlast⟩
    have hmore := hpast.trans hlast
    constructor
    · intro hr
      exact ⟨past, last, hrejected, hfair, hpermits, Or.inl ⟨hr, rfl⟩, hmore⟩
    · intro e he hl
      exact ⟨hu, past, last, hlen, hrejected, hpermits, hfair, he, hl, hmore⟩
  case exhausted =>
    rintro n e v ⟨hv, past, last, rfl, hrejected, hpermits, hfair, he, hl, hpast⟩ hp
    exact ⟨past, last, hrejected, hfair, hpermits, Or.inr ⟨hp, e, he, hl, rfl⟩,
      hpast.concat_quiet (told v _ _ _ hv).2⟩
  case backoff =>
    rintro n e v u ⟨hv, past, last, rfl, hrejected, hpermits, hfair, he, hl, hpast⟩ hp rfl
    obtain ⟨hu, hsilent⟩ := told v .debug _ _ hv
    have htold := hpast.concat_quiet hsilent
    obtain ⟨hasked, hnap⟩ := asleep past last _ hu htold
    refine ⟨unbroken hasked, hnap.mono ?_ fun _ hs => hs⟩
    rintro _ t ⟨ht, hslept⟩
    have hr : isRejection (outcome last) = true := by
      rw [he]
      exact hl
    refine ⟨ht, past ++ [last], by simp, hrejected.concat hfair hr, ?_, ?_⟩
    · intro i hi
      rw [List.length_append, List.length_singleton] at hi
      exact hp.of_le (by omega)
    · rw [sequence_concat]
      exact htold.concat hslept
  case unfollowed =>
    rintro v ⟨-, past, hlen, hpast⟩
    rw [Nat.zero_add] at hlen
    exact ⟨past, hlen, hpast⟩
  case start => exact ⟨start, [], rfl, .nil, (fun _ hi => nomatch hi), .refl w⟩

end RpcPolicy.Retry
