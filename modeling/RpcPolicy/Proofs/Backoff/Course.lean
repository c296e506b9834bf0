import RpcPolicy.Proofs.Backoff.Steps
/-! Cursors after any steps and resets. Main statement: what a cursor says next depends on its
policy and on the number of steps since it was last reset, and on nothing else. -/

namespace RpcPolicy

/-! ### Lengths of time -/

theorem nanos_ofNanos (n : Nat) : (Duration.ofNanos n).nanos = min n (Duration.bound - 1) := by
  by_cases h : n < Duration.bound
  · simp only [Duration.ofNanos, h, dite_true]
    omega
  · simp only [Duration.ofNanos, h, dite_false, Duration.longest]
    omega

theorem nanos_min (a b : Duration) : (a.min b).nanos = min a.nanos b.nanos := by
  unfold Duration.min
  split <;> omega

theorem nanos_max (a b : Duration) : (a.max b).nanos = max a.nanos b.nanos := by
  unfold Duration.max
  split <;> omega

/-- Twice a length is cut at the longest one before it is cut at a bound. -/
theorem nanos_double_min (d cap : Duration) :
    (d.double.min cap).nanos = min (2 * d.nanos) cap.nanos := by
  have hcap := cap.nanos_lt
  rw [nanos_min, Duration.double, nanos_ofNanos]
  omega

theorem Duration.nanos_inj {a b : Duration} (h : a.nanos = b.nanos) : a = b := by
  cases a
  cases b
  simpa using h

/-- A length that lies within a range is left alone. -/
theorem clamp_eq {d low high : Duration} (hl : low.nanos ≤ d.nanos) (hh : d.nanos ≤ high.nanos) :
    d.clamp low high = d := by
  apply Duration.nanos_inj
  rw [Duration.clamp, nanos_max, nanos_min]
  omega

namespace BackoffPolicy

theorem nanos_cap (p : BackoffPolicy) :
    p.cap.nanos =
      if p.maxDelay.nanos = 0 then 2 ^ 64 * nanosPerSecond - 1 else p.maxDelay.nanos := by
  by_cases h : p.maxDelay.nanos = 0
  · simp [cap, Duration.isZero, h, Duration.longest, Duration.bound]
  · simp [cap, Duration.isZero, h]

theorem nanos_floor (p : BackoffPolicy) : p.floor.nanos = min p.minDelay.nanos p.cap.nanos :=
  nanos_min p.minDelay p.cap

end BackoffPolicy

namespace Cursor

/-! ### Operations -/

/-- What may be done with a cursor. -/
inductive Op where
  | step
  | next
  | reset

/-- The cursor after an operation. -/
def apply (c : Cursor) : Op → Cursor
  | .step => c.step.2
  | .next => c.next.2
  | .reset => c.reset

/-- The cursor after some operations. -/
def run (c : Cursor) (ops : List Op) : Cursor := ops.foldl apply c

/-- A count of steps after one operation more; a reset begins it anew. -/
def tally (m : Nat) : Op → Nat
  | .step | .next => m + 1
  | .reset => 0

/-- The steps among some operations since the last reset, or since the cursor was made. -/
def stepsSince (ops : List Op) : Nat := ops.foldl tally 0

variable {p : BackoffPolicy} {m : Nat} {c : Cursor}

theorem foldl_tally_nexts (m k : Nat) : (List.replicate k Op.next).foldl tally m = m + k := by
  induction k generalizing m with
  | zero => rfl
  | succ k ih =>
    rw [List.replicate_succ, List.foldl_cons, ih]
    simp only [tally]
    omega

theorem next_of_done (h : c.step.1.done = true) : c.next.1 = none := by
  simp only [next, h, if_true]

theorem next_of_not_done (h : c.step.1.done = false) : c.next.1 = some c.step.1.delay := by
  simp only [next, h, Bool.false_eq_true, if_false]

theorem isSome_next (c : Cursor) : c.next.1.isSome = !c.step.1.done := by
  cases h : c.step.1.done with
  | true => rw [next_of_done h]; rfl
  | false => rw [next_of_not_done h]; rfl

/-! ### What operations keep -/

/-- The cursor of a policy has taken `m` steps since it was made or reset. -/
structure Stands (p : BackoffPolicy) (m : Nat) (c : Cursor) : Prop where
  policy : c.policy = p
  attempts : c.attempts = min m attemptLimit
  current : c.current.nanos = min (p.minDelay.nanos * 2 ^ m) p.cap.nanos

namespace Stands

theorem ofSource (p : BackoffPolicy) (source : RandomSource) : Stands p 0 (ofSource p source) := by
  refine ⟨rfl, rfl, ?_⟩
  rw [Nat.pow_zero, Nat.mul_one]
  exact p.nanos_floor

theorem reset (h : Stands p m c) : Stands p 0 c.reset := by
  obtain ⟨rfl, -, -⟩ := h
  exact ofSource c.policy c.source

/-- What was cut at the cap may be doubled and cut again. -/
theorem step (h : Stands p m c) : Stands p (m + 1) c.step.2 := by
  obtain ⟨rfl, hattempts, hcurrent⟩ := h
  refine ⟨rfl, ?_, ?_⟩
  · change countAttempt c.attempts = min (m + 1) attemptLimit
    rw [hattempts, countAttempt_min]
  · have hpow : c.policy.minDelay.nanos * 2 ^ (m + 1) = 2 * (c.policy.minDelay.nanos * 2 ^ m) := by
      rw [Nat.pow_succ]
      ac_rfl
    change (c.current.double.min c.policy.cap).nanos = _
    rw [nanos_double_min, hcurrent, hpow]
    omega

theorem apply (h : Stands p m c) (op : Op) : Stands p (tally m op) (c.apply op) := by
  cases op with
  | step => exact h.step
  | next => exact h.step
  | reset => exact h.reset

theorem run (h : Stands p m c) (ops : List Op) : Stands p (ops.foldl tally m) (c.run ops) := by
  induction ops generalizing m c with
  | nil => exact h
  | cons op ops ih => exact ih (h.apply op)

/-! ### What the next step says -/

/-- The count of steps stays below its largest value up to every ceiling. -/
theorem done_iff (h : Stands p m c) :
    c.step.1.done = true ↔ 0 < p.maxRetries.toNat ∧ p.maxRetries.toNat ≤ m := by
  obtain ⟨rfl, hattempts, -⟩ := h
  have hceiling := c.policy.maxRetries_le
  have hzero : c.policy.maxRetries = 0 ↔ c.policy.maxRetries.toNat = 0 := by
    rw [← UInt32.toNat_inj]
    rfl
  change (!c.canRetry) = true ↔ _
  simp only [canRetry, hattempts, hzero, Bool.not_eq_true', Bool.or_eq_false_iff,
    decide_eq_false_iff_not]
  omega

/-- Nexts alone give a delay as long as the policy permits a retry. -/
theorem next_nexts (h : Stands p 0 c) (k : Nat) :
    (c.run (List.replicate k .next)).next.1.isSome = true ↔
      p.maxRetries.toNat = 0 ∨ k < p.maxRetries.toNat := by
  have hdone := (h.run (List.replicate k .next)).done_iff
  rw [foldl_tally_nexts, Nat.zero_add] at hdone
  rw [isSome_next, Bool.not_eq_true', ← Bool.not_eq_true, hdone]
  omega

/-- A policy without jitter leaves the delay as it is. -/
theorem delay_eq (h : Stands p m c) (hj : p.jitter.isNaN = true ∨ p.jitter.le 0 = true) :
    c.step.1.delay = c.current := by
  obtain ⟨rfl, -, hcurrent⟩ := h
  have hswing : c.policy.swing? = none := by
    rcases hj with hj | hj <;> simp [BackoffPolicy.swing?, hj]
  have hdelay : c.step.1.delay = c.current.clamp c.policy.floor c.policy.cap := by
    change c.jittered.1 = _
    rw [jittered, hswing]
  have hpow : 1 ≤ 2 ^ m := Nat.one_le_two_pow
  have hgrown := Nat.mul_le_mul_left c.policy.minDelay.nanos hpow
  rw [hdelay]
  apply clamp_eq
  · rw [c.policy.nanos_floor]
    omega
  · omega

end Stands

/-- After any steps, nexts and resets, the delay has doubled up to the cap once for each step since
the last reset. The source and the jitter have no say in when the cursor is done. -/
theorem run_closed_form (p : BackoffPolicy) (source : RandomSource) (ops : List Op) :
    let c := (ofSource p source).run ops
    let m := stepsSince ops
    let cap := if p.maxDelay.nanos = 0 then 2 ^ 64 * nanosPerSecond - 1 else p.maxDelay.nanos
    c.current.nanos = min (p.minDelay.nanos * 2 ^ m) cap ∧
    c.attempts = min m (2 ^ 32 - 1) ∧
    (c.step.1.done = true ↔ 0 < p.maxRetries.toNat ∧ p.maxRetries.toNat ≤ m) ∧
    c.next = (if c.step.1.done then none else some c.step.1.delay, c.step.2) ∧
    (m = 0 → ∀ k, (c.run (List.replicate k .next)).next.1.isSome = true ↔
      p.maxRetries.toNat = 0 ∨ k < p.maxRetries.toNat) ∧
    (∀ (jitter : Binary64) (other : RandomSource),
      let d := (ofSource { p with jitter } other).run ops
      d.current = c.current ∧ d.attempts = c.attempts ∧ d.step.1.done = c.step.1.done ∧
        d.next.1.isSome = c.next.1.isSome) ∧
    (p.jitter.isNaN = true ∨ p.jitter.le 0 = true → c.step.1.delay = c.current) := by
  intro c m cap
  have hc : Stands p m c := (Stands.ofSource p source).run ops
  have hcap : p.cap.nanos = cap := p.nanos_cap
  refine ⟨?current, hc.attempts, hc.done_iff, rfl, ?nexts, ?alike, hc.delay_eq⟩
  case current =>
    rw [hc.current, hcap]
  case nexts =>
    intro hm k
    rw [hm] at hc
    exact hc.next_nexts k
  case alike =>
    intro jitter other d
    have hd : Stands { p with jitter } m d := (Stands.ofSource _ other).run ops
    have hdone : d.step.1.done = c.step.1.done := by
      apply Bool.eq_iff_iff.mpr
      rw [hc.done_iff, hd.done_iff]
    refine ⟨?_, ?_, hdone, ?_⟩
    · apply Duration.nanos_inj
      rw [hc.current, hd.current]
      rfl
    · rw [hc.attempts, hd.attempts]
    · rw [isSome_next, isSome_next, hdone]

/-- From 100 ms to a second, with two retries and no jitter: after five steps the delay is at the
cap and the next step is done; after a reset there are two delays again. -/
theorem run_closed_form_capped :
    let p : BackoffPolicy := ⟨.ofMillis 100, .ofSeconds 1, 2, 0⟩
    let c := (ofSeed p 7).run [.step, .reset, .next, .step, .next, .step, .next]
    let d := (ofSeed p 7).run [.step, .next, .reset]
    c.current = .ofSeconds 1 ∧ c.attempts = 5 ∧ c.step.1.delay = .ofSeconds 1 ∧
      c.step.1.done = true ∧ d.next.1.isSome = true ∧
      (d.run [.next, .next]).next.1.isSome = false := by
  intro p c d
  have hjitter : p.jitter.le 0 = true := by decide +kernel
  obtain ⟨hcurrent, hattempts, hdone, -, -, -, hdelay⟩ :=
    run_closed_form p (.ofSeed 7) [.step, .reset, .next, .step, .next, .step, .next]
  obtain ⟨-, -, -, -, hnexts, -, -⟩ := run_closed_form p (.ofSeed 7) [.step, .next, .reset]
  have hcapped : c.current = .ofSeconds 1 := Duration.nanos_inj (hcurrent.trans (by decide))
  refine ⟨hcapped, hattempts, (hdelay (Or.inr hjitter)).trans hcapped, hdone.mpr (by decide),
    (hnexts rfl 0).mpr (by decide), ?_⟩
  rw [← Bool.not_eq_true]
  exact mt (hnexts rfl 2).mp (by decide)

end Cursor

end RpcPolicy
