import RpcPolicy.Backoff.Cursor
/-! Cursors after any number of steps. Main statements: which steps are done, and that the delays
taken from a cursor are those of its first steps. -/

namespace RpcPolicy

theorem countAttempt_min (n : Nat) :
    countAttempt (min n attemptLimit) = min (n + 1) attemptLimit := by
  change min (min n attemptLimit + 1) attemptLimit = min (n + 1) attemptLimit
  omega

namespace BackoffPolicy

/-- A further retry is permitted after `n` of them. -/
def Permits (p : BackoffPolicy) (n : Nat) : Prop :=
  p.maxRetries = 0 ∨ n < p.maxRetries.toNat

theorem Permits.of_le {p : BackoffPolicy} {m n : Nat} (h : p.Permits n) (hm : m ≤ n) :
    p.Permits m := by
  rcases h with h | h
  · exact Or.inl h
  · exact Or.inr (by omega)

theorem maxRetries_le (p : BackoffPolicy) : p.maxRetries.toNat ≤ attemptLimit := by
  have h := p.maxRetries.toNat_lt
  unfold attemptLimit
  omega

end BackoffPolicy

namespace Cursor

variable {c : Cursor}

/-- The cursor a number of steps later. -/
def after (c : Cursor) : Nat → Cursor
  | 0 => c
  | n + 1 => (c.after n).step.2

/-- The delay of the step that follows a number of steps. -/
def delay (c : Cursor) (n : Nat) : Duration :=
  (c.after n).step.1.delay

/-- No step was taken yet. -/
def Fresh (c : Cursor) : Prop := c.attempts = 0

@[simp] theorem policy_step (c : Cursor) : c.step.2.policy = c.policy := rfl

@[simp] theorem policy_after (c : Cursor) (n : Nat) : (c.after n).policy = c.policy := by
  induction n with
  | zero => rfl
  | succ n ih => rw [after, policy_step, ih]

/-- The count of steps stays at the largest count. -/
theorem attempts_after (h : c.Fresh) (n : Nat) :
    (c.after n).attempts = min n attemptLimit := by
  induction n with
  | zero => exact h
  | succ n ih =>
    have hs : (c.after (n + 1)).attempts = countAttempt (c.after n).attempts := rfl
    rw [hs, ih, countAttempt_min]

/-- The step after `n` steps is done exactly when the policy permits no further retry; the count
stays below its largest value up to every ceiling. -/
theorem done_after (h : c.Fresh) (n : Nat) :
    (c.after n).step.1.done = false ↔ c.policy.Permits n := by
  have hd : (c.after n).step.1.done = !(c.after n).canRetry := rfl
  have hm := c.policy.maxRetries_le
  rw [hd, canRetry, policy_after, attempts_after h]
  simp only [Bool.not_eq_false', Bool.or_eq_true, decide_eq_true_eq, BackoffPolicy.Permits]
  refine or_congr_right ?_
  omega

theorem take_after (n m : Nat) (h : ∀ i < n, (c.after (m + i)).step.1.done = false) :
    ((c.after m).take n).1 = (List.range n).map fun i => c.delay (m + i) := by
  induction n generalizing m with
  | zero => rfl
  | succ n ih =>
    have hd : (c.after m).step.1.done = false := h 0 (by omega)
    have hrest := ih (m + 1) fun i hi => by
      have := h (i + 1) (by omega)
      rwa [show m + (i + 1) = m + 1 + i by omega] at this
    rw [after] at hrest
    rw [List.range_succ_eq_map, List.map_cons, List.map_map]
    simp only [take, next, hd, Bool.false_eq_true, if_false]
    rw [hrest]
    simp only [delay, Nat.add_zero, Function.comp_def, Nat.succ_eq_add_one,
      Nat.add_assoc, Nat.add_comm 1]

/-- As long as retries are permitted, what is taken are the delays of the first steps. -/
theorem take_eq (h : c.Fresh) {n : Nat} (hn : ∀ i < n, c.policy.Permits i) :
    (c.take n).1 = (List.range n).map c.delay := by
  have ht := take_after (c := c) n 0 fun i hi => by
    rw [Nat.zero_add, done_after h]
    exact hn i hi
  simpa [after] using ht

end Cursor

end RpcPolicy
