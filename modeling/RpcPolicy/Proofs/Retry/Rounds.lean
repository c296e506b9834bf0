import RpcPolicy.Proofs.Retry.Blocks
/-! Whole runs of a retried call that nothing cuts short. Main statement: which attempts and which
sleeps a run is made of, and what it ends in. -/

namespace RpcPolicy.Retry

/-- What a retried call does: it makes an attempt, which ends in something, or sleeps. -/
inductive Act where
  | attempt (outcome : Outcome)
  | nap (delay : Duration)

namespace Act

/-- What an attempt ended in. -/
def outcome? : Act → Option Outcome
  | attempt x => some x
  | nap _ => none

/-- How long a sleep was asked to take. -/
def delay? : Act → Option Duration
  | attempt _ => none
  | nap d => some d

end Act

/-- What the attempts among some acts ended in. -/
def outcomes (acts : List Act) : List Outcome := acts.filterMap Act.outcome?

/-- The delays of the sleeps among some acts. -/
def delays (acts : List Act) : List Duration := acts.filterMap Act.delay?

/-- The first rounds of a call, each an attempt and the sleep after it. -/
def rounds (c : Cursor) (o : Nat → Outcome) : Nat → List Act
  | 0 => []
  | n + 1 => rounds c o n ++ [.attempt (o n), .nap (c.delay n)]

/-- A number of rounds, and one attempt more. -/
def history (c : Cursor) (o : Nat → Outcome) (n : Nat) : List Act :=
  rounds c o n ++ [.attempt (o n)]

/-- An act takes one world to another: a whole run of the next call, or of a sleep. -/
def Does (env : Environment) (next : Unary) (sleep : Sleep) (request : Request) :
    Act → Environment
  | .attempt x => fun w v => (next.deferred request).Ends env w x v
  | .nap d => fun w v => (sleep.begun d).Ends env w () v

/-- An observer is told of something. -/
def Remark : Environment := fun w v =>
  ∃ level message fields, v = w.record (.event level message fields)

/-- Some acts of a retried call, in order. -/
abbrev History (env : Environment) (next : Unary) (sleep : Sleep) (request : Request) :
    List Act → World → World → Prop :=
  Trace Remark (Does env next sleep request)

/-- From `w` on a request is bounded by nothing, each attempt ends in its own outcome of `o` and
each sleep ends, whatever was done before. -/
structure Undisturbed (env : Environment) (next : Unary) (sleep : Sleep) (request : Request)
    (o : Nat → Outcome) (w : World) : Prop where
  deadline : request.deadline = none
  start : w.isCanceled request.token = false
  looks : ∀ u v, env u v → v.isCanceled request.token = false
  attempt : ∀ acts v, History env next sleep request acts w v →
    v.isCanceled request.token = false →
    (next.deferred request).Completes env v
      (fun x u => x = o (outcomes acts).length ∧ u.isCanceled request.token = false) fun _ => False
  asked : ∀ acts v d, History env next sleep request acts w v →
    v.isCanceled request.token = false → (sleep d v).2.isCanceled request.token = false
  nap : ∀ acts v d, History env next sleep request acts w v →
    v.isCanceled request.token = false →
    (sleep.begun d).Completes env v (fun _ u => u.isCanceled request.token = false) fun _ => False

/-! ### Histories -/

variable {c : Cursor} {o : Nat → Outcome} {n : Nat}

theorem outcomes_rounds : outcomes (rounds c o n) = (List.range n).map o := by
  induction n with
  | zero => rfl
  | succ n ih =>
    have h : outcomes (rounds c o (n + 1)) = outcomes (rounds c o n) ++ [o n] :=
      List.filterMap_append
    rw [h, ih, List.range_succ, List.map_append, List.map_singleton]

theorem delays_rounds : delays (rounds c o n) = (List.range n).map c.delay := by
  induction n with
  | zero => rfl
  | succ n ih =>
    have h : delays (rounds c o (n + 1)) = delays (rounds c o n) ++ [c.delay n] :=
      List.filterMap_append
    rw [h, ih, List.range_succ, List.map_append, List.map_singleton]

theorem outcomes_history : outcomes (history c o n) = (List.range (n + 1)).map o := by
  have h : outcomes (history c o n) = outcomes (rounds c o n) ++ [o n] := List.filterMap_append
  rw [h, outcomes_rounds, List.range_succ, List.map_append, List.map_singleton]

theorem delays_history : delays (history c o n) = (List.range n).map c.delay := by
  have h : delays (history c o n) = delays (rounds c o n) ++ [] := List.filterMap_append
  rw [h, List.append_nil, delays_rounds]

/-- The sleeps of a history are what the cursor gives away first. -/
theorem delays_history_eq_take (hc : c.Fresh) (hn : ∀ i < n, c.policy.Permits i) :
    delays (history c o n) = (c.take n).1 := by
  rw [delays_history, Cursor.take_eq hc hn]

/-! ### Cursors of calls -/

variable {r : Retry} {w w₀ : World}

theorem cursor_fresh : (r.cursor w).1.Fresh := by
  unfold Retry.cursor
  cases r.seed <;> rfl

@[simp] theorem policy_cursor : (r.cursor w).1.policy = r.policy := by
  unfold Retry.cursor
  cases r.seed <;> rfl

theorem followed_cursor : followed r.policy (r.cursor w).2 = followed r.policy w := by
  unfold Retry.cursor
  cases r.seed <;> rfl

/-- A cursor comes from a source of seeds, and taking it does nothing else. -/
theorem cursor_seeds (r : Retry) (w : World) :
    ∃ counters entropy, (r.cursor w).2 = { w with counters, entropy } := by
  unfold cursor
  cases r.seed with
  | none => exact ⟨w.counters, _, rfl⟩
  | some seed => exact ⟨_, w.entropy, rfl⟩

/-- Making a call takes a cursor; the attempts follow when it is looked at. -/
theorem wrapUnary_eq (r : Retry) (next : Unary) (request : Request) (w : World) :
    r.wrapUnary next request w =
      (attempts next r.sleep request (followed r.policy w) 0 (r.cursor w).1, (r.cursor w).2) := by
  rw [← followed_cursor]
  rfl

/-- Only without a ceiling is a retry permitted after every attempt that is followed. -/
theorem followed_of_permits {p : BackoffPolicy} (h : ∀ i < followed p w, p.Permits i) :
    p.maxRetries = 0 ∧ followed p w = w.patience := by
  by_cases h0 : p.maxRetries = 0
  · exact ⟨h0, by rw [followed, if_pos h0]⟩
  · rw [followed, if_neg h0] at h
    rcases h p.maxRetries.toNat (by omega) with hzero | hlt
    · exact absurd hzero h0
    · omega

/-! ### Runs -/

variable {env : Environment} {next : Unary} {sleep : Sleep} {request : Request}

/-- Every one of the first rounds was rejected and a retry permitted after it. -/
def Retried (c : Cursor) (o : Nat → Outcome) (n : Nat) : Prop :=
  ∀ i < n, isRejection (o i) = true ∧ c.policy.Permits i

/-- The rounds of a call are blocks of one attempt each, told apart by their place. -/
theorem rounds_eq_sequence :
    rounds c o n = sequence (fun i => [.attempt (o i)]) .nap c.delay (List.range n) := by
  induction n with
  | zero => rfl
  | succ n ih =>
    rw [List.range_succ, sequence_concat, List.length_range, ← ih]
    exact (List.append_assoc _ [Act.attempt (o n)] _).symm

theorem Rejected.eq_range {past : List Nat} (h : Rejected (fun n i => i = n) o past) :
    past = List.range past.length ∧ ∀ i < past.length, isRejection (o i) = true := by
  induction h with
  | nil => exact ⟨rfl, fun _ hi => nomatch hi⟩
  | @concat past b _ next rejected ih =>
    subst next
    rw [List.length_append, List.length_singleton, List.range_succ, ← ih.1]
    refine ⟨rfl, fun i hi => ?_⟩
    rcases Nat.lt_or_eq_of_le (Nat.lt_succ_iff.mp hi) with hi | rfl
    · exact ih.2 i hi
    · exact rejected

theorem attempts_runs (h : Undisturbed env next sleep request o w) (hc : c.Fresh)
    (follow : Nat) :
    (attempts next sleep request follow 0 c).Completes env w
      (fun x v => ∃ n, Retried c o n ∧ EndsWith c.policy n (o n) x ∧
        History env next sleep request (history c o n) w v)
      (fun v => Retried c o follow ∧ History env next sleep request (rounds c o follow) w v) := by
  refine (attempts_blocks Remark (Does env next sleep request) (fun i => [Act.attempt (o i)])
    .nap o (fun n i => i = n) (fun v => v.isCanceled request.token = false)
    hc h.deadline h.looks (fun _ hv => hv) (fun _ _ _ _ hv => ⟨hv, _, _, _, rfl⟩)
    ?attempt ?asleep h.start follow).mono ?ended ?unfollowed
  case attempt =>
    intro past v hv hrejected hpast
    rw [hrejected.eq_range.1, ← rounds_eq_sequence] at hpast
    have hdone := (h.attempt _ v hpast hv).and_ends
    rw [outcomes_rounds, List.length_map, List.length_range] at hdone
    refine hdone.mono ?_ fun _ hf => hf
    rintro x u ⟨⟨rfl, hu⟩, hends⟩
    exact ⟨hu, past.length, rfl, rfl, .single hends⟩
  case asleep =>
    intro past b v hv hpast
    exact ⟨h.asked _ _ _ hpast hv, (h.nap _ _ _ hpast hv).and_ends⟩
  case ended =>
    rintro x v ⟨past, last, hrejected, hlast, hpermits, hends, hpast⟩
    obtain ⟨hrange, hall⟩ := hrejected.eq_range
    rw [hrange, ← rounds_eq_sequence, hlast] at hpast
    rw [hlast] at hends
    exact ⟨past.length, fun i hi => ⟨hall i hi, hpermits i hi⟩, hends, hpast⟩
  case unfollowed =>
    rintro v ⟨past, rfl, hrejected, hpermits, hpast⟩
    obtain ⟨hrange, hall⟩ := hrejected.eq_range
    rw [hrange, ← rounds_eq_sequence] at hpast
    exact ⟨fun i hi => ⟨hall i hi, hpermits i hi⟩, hpast⟩

theorem wrapUnary_completes {r : Retry} (w₀ : World)
    (h : Undisturbed env next r.sleep request o w) :
    (r.wrapUnary next request w₀).1.Completes env w
      (fun x v => ∃ n, Retried (r.cursor w₀).1 o n ∧ EndsWith (r.cursor w₀).1.policy n (o n) x ∧
        History env next r.sleep request (history (r.cursor w₀).1 o n) w v)
      (fun v => Retried (r.cursor w₀).1 o (followed r.policy w₀) ∧
        History env next r.sleep request
          (rounds (r.cursor w₀).1 o (followed r.policy w₀)) w v) := by
  have hcall : (r.wrapUnary next request w₀).1 =
      attempts next r.sleep request (followed r.policy w₀) 0 (r.cursor w₀).1 := by
    rw [← followed_cursor]
    rfl
  rw [hcall]
  exact attempts_runs h cursor_fresh _

theorem Retried.le_first {k : Nat} (h : Retried c o n) (first : isRejection (o k) = false) :
    n ≤ k := by
  refine Nat.le_of_not_lt fun hn => ?_
  have hr := (h k hn).1
  rw [first] at hr
  cases hr

theorem Retried.le_last (h : Retried c o n) (hne : c.policy.maxRetries ≠ 0) :
    n ≤ c.policy.maxRetries.toNat := by
  refine Nat.le_of_not_lt fun hn => ?_
  rcases (h _ hn).2 with h0 | hlt
  · exact hne h0
  · omega

/-- With a first outcome `k` that no rate limit rejected, and retries enough to come to it, a run
ends there. -/
theorem EndsWith.eq_first {k : Nat} {x : Outcome} (h : EndsWith c.policy n (o n) x)
    (hretried : Retried c o n) (first : isRejection (o k) = false)
    (before : ∀ i < k, isRejection (o i) = true) (hp : ∀ i < k, c.policy.Permits i) :
    n = k ∧ x = o k := by
  have hle := hretried.le_first first
  rcases h with ⟨hr, rfl⟩ | ⟨hn, e, he, hl, -⟩
  · have hk : ¬ n < k := by
      intro hlt
      rw [before n hlt] at hr
      cases hr
    obtain rfl : n = k := by omega
    exact ⟨rfl, rfl⟩
  · have hk : ¬ n < k := fun hlt => hn (hp n hlt)
    obtain rfl : n = k := by omega
    rw [he] at first
    exact absurd hl (by simpa [isRejection] using first)

/-- A run in which all permitted attempts are rejected ends with the last of them. -/
theorem EndsWith.eq_last {x : Outcome} (h : EndsWith c.policy n (o n) x) (hretried : Retried c o n)
    (hne : c.policy.maxRetries ≠ 0)
    (hall : ∀ i ≤ c.policy.maxRetries.toNat, isRejection (o i) = true) :
    n = c.policy.maxRetries.toNat ∧ ∃ e, o n = .error e ∧ e.isRateLimited = true ∧
      x = .error (.retriesExhausted (min (n + 1) attemptLimit) e) := by
  have hle := hretried.le_last hne
  rcases h with ⟨hr, -⟩ | ⟨hn, hx⟩
  · rw [hall n hle] at hr
    cases hr
  · have hge : ¬ n < c.policy.maxRetries.toNat := fun hlt => hn (Or.inr hlt)
    exact ⟨by omega, hx⟩

/-- Without a ceiling, and with rejections only, a run has no end. -/
theorem EndsWith.not_of_unbounded {x : Outcome} (h0 : c.policy.maxRetries = 0)
    (hall : ∀ i, isRejection (o i) = true) : ¬ EndsWith c.policy n (o n) x := by
  rintro (⟨hr, -⟩ | ⟨hn, -⟩)
  · rw [hall n] at hr
    cases hr
  · exact hn (Or.inl h0)

/-! ### Calls with given outcomes -/

/-- The next call that ends in one outcome after another. -/
def answering (o : Nat → Outcome) : Unary := fun _ w =>
  (fun w => (.done (o w.calls), { w with calls := w.calls + 1 }), w)

theorem answering_ends {x : Outcome} {v : World}
    (h : ((answering o).deferred request).Ends env w x v) : v.calls = w.calls + 1 := by
  cases h
  rfl

theorem answering_history {token : Token} {acts : List Act} {v : World}
    (h : History (Calm token) (answering o) Sleep.timer request acts w v) :
    v.calls = w.calls + (outcomes acts).length := by
  induction h with
  | refl => rfl
  | quiet step _ ih =>
    obtain ⟨level, message, fields, rfl⟩ := step
    exact ih
  | @act a acts w v u step _ ih =>
    cases a with
    | attempt x =>
      have hv : v.calls = w.calls + 1 := answering_ends step
      have ho : (outcomes (.attempt x :: acts)).length = (outcomes acts).length + 1 := rfl
      omega
    | nap d =>
      have hv : v.calls = w.calls := by
        rcases Sleep.timer_ends step with rfl | ⟨⟨t, -, rfl⟩, -⟩ <;> rfl
      have ho : outcomes (.nap d :: acts) = outcomes acts := rfl
      rw [ho, ih, hv]

/-- Every sequence of outcomes is that of some undisturbed call. -/
theorem undisturbed_answering (o : Nat → Outcome) (hd : request.deadline = none)
    (hw : w.isCanceled request.token = false) (h0 : w.calls = 0) :
    Undisturbed (Calm request.token) (answering o) Sleep.timer request o w where
  deadline := hd
  start := hw
  looks _ _ h := h.2
  attempt acts v h hv := by
    have hcalls := answering_history h
    rw [h0, Nat.zero_add] at hcalls
    have hx : o v.calls = o (outcomes acts).length := by rw [hcalls]
    exact .done ⟨hx, hv⟩
  asked _ _ _ _ hv := hv
  nap _ v d _ hv := by
    refine (Sleep.timer_completes hv).mono ?_ fun _ hf => hf
    rintro _ u ⟨hu, -⟩
    exact (hu.isCanceled request.token).trans hv

/-- Two rejections, then a response. -/
def busyTwice (n : Nat) : Outcome :=
  if n < 2 then .error (.rateLimited "busy") else .ok default

/-- Whole runs of a retried call: the attempts up to the first that is not rejected, or one more
than the permitted retries, with the first delays of the cursor between them. -/
theorem wrapUnary_runs {r : Retry} (w₀ : World)
    (h : Undisturbed env next r.sleep request o w) :
    (∀ k, isRejection (o k) = false → (∀ i < k, isRejection (o i) = true) →
      r.policy.maxRetries = 0 ∨ k ≤ r.policy.maxRetries.toNat →
      outcomes (history (r.cursor w₀).1 o k) = (List.range (k + 1)).map o ∧
      delays (history (r.cursor w₀).1 o k) = ((r.cursor w₀).1.take k).1 ∧
      (r.wrapUnary next request w₀).1.Completes env w
        (fun x v => x = o k ∧
          History env next r.sleep request (history (r.cursor w₀).1 o k) w v)
        (fun _ => r.policy.maxRetries = 0 ∧ w₀.patience ≤ k)) ∧
    (r.policy.maxRetries ≠ 0 →
      (∀ i ≤ r.policy.maxRetries.toNat, isRejection (o i) = true) →
      outcomes (history (r.cursor w₀).1 o r.policy.maxRetries.toNat) =
        (List.range (r.policy.maxRetries.toNat + 1)).map o ∧
      delays (history (r.cursor w₀).1 o r.policy.maxRetries.toNat) =
        ((r.cursor w₀).1.take r.policy.maxRetries.toNat).1 ∧
      (r.wrapUnary next request w₀).1.Completes env w
        (fun x v => (∃ e, o r.policy.maxRetries.toNat = .error e ∧ e.isRateLimited = true ∧
            e.isRetriesExhausted = false ∧ (∀ size limit, e ≠ .messageTooLarge size limit) ∧
            x = .error (.retriesExhausted
              (min (r.policy.maxRetries.toNat + 1) (2 ^ 32 - 1)) e)) ∧
          History env next r.sleep request
            (history (r.cursor w₀).1 o r.policy.maxRetries.toNat) w v)
        (fun _ => False)) ∧
    (r.policy.maxRetries = 0 → (∀ i, isRejection (o i) = true) →
      (∀ x v, ¬ (r.wrapUnary next request w₀).1.Ends env w x v) ∧
      (r.wrapUnary next request w₀).1.Completes env w (fun _ _ => False)
        (fun v => History env next r.sleep request (rounds (r.cursor w₀).1 o w₀.patience) w v)) := by
  have hfresh : (r.cursor w₀).1.Fresh := cursor_fresh
  have hruns := wrapUnary_completes w₀ h
  have hpolicy : (r.cursor w₀).1.policy = r.policy := policy_cursor
  rw [← hpolicy] at hruns ⊢
  generalize (r.cursor w₀).1 = c at hfresh hruns
  refine ⟨?first, ?last, ?never⟩
  case first =>
    intro k first before hk
    have hp : ∀ i < k, c.policy.Permits i := by
      intro i hi
      rcases hk with h0 | hle
      · exact Or.inl h0
      · exact Or.inr (by omega)
    refine ⟨outcomes_history, delays_history_eq_take hfresh hp, hruns.mono ?_ ?_⟩
    · rintro x v ⟨n, hretried, hends, hpast⟩
      obtain ⟨rfl, rfl⟩ := hends.eq_first hretried first before hp
      exact ⟨rfl, hpast⟩
    · rintro v ⟨hretried, -⟩
      have hle := hretried.le_first first
      unfold followed at hle
      split at hle
      · exact ⟨by assumption, hle⟩
      · rcases hk with h0 | hk
        · contradiction
        · omega
  case last =>
    intro hne hall
    have hp : ∀ i < c.policy.maxRetries.toNat, c.policy.Permits i := fun i hi => Or.inr hi
    refine ⟨outcomes_history, delays_history_eq_take hfresh hp, hruns.mono ?_ ?_⟩
    · rintro x v ⟨n, hretried, hends, hpast⟩
      obtain ⟨rfl, e, he, hl, hx⟩ := hends.eq_last hretried hne hall
      refine ⟨⟨e, he, hl, ?_, ?_, hx⟩, hpast⟩
      · cases e <;> first | rfl | cases hl
      · rintro size limit rfl
        cases hl
    · rintro v ⟨hretried, -⟩
      have hle := hretried.le_last hne
      rw [followed, if_neg hne] at hle
      omega
  case never =>
    intro h0 hall
    have hnone : (r.wrapUnary next request w₀).1.Completes env w (fun _ _ => False)
        (fun v => History env next r.sleep request (rounds c o w₀.patience) w v) := by
      refine hruns.mono ?_ ?_
      · rintro x v ⟨n, -, hends, -⟩
        exact EndsWith.not_of_unbounded h0 hall hends
      · rintro v ⟨-, hpast⟩
        rwa [followed, if_pos h0] at hpast
    exact ⟨fun x v hends => hnone.of_ends hends, hnone⟩

/-- Two retries are enough for a call that is rejected twice, one is not. -/
theorem busyTwice_runs :
    let request := Request.ofBody "p" default 0
    let call := fun n : UInt32 => ((Retry.mk { BackoffPolicy.standard with maxRetries := n }
      (some 7) .timer 0).wrapUnary (answering busyTwice) request .initial).1
    Undisturbed (Calm request.token) (answering busyTwice) .timer request busyTwice .initial ∧
      (call 2).Completes (Calm request.token) .initial (fun x _ => x = .ok default)
        (fun _ => False) ∧
      (call 1).Completes (Calm request.token) .initial
        (fun x _ => x = .error (.retriesExhausted 2 (.rateLimited "busy"))) (fun _ => False) := by
  intro request call
  have h : Undisturbed (Calm request.token) (answering busyTwice) .timer request busyTwice
      .initial := undisturbed_answering busyTwice rfl rfl rfl
  refine ⟨h, ?_, ?_⟩
  · have hpass := (wrapUnary_runs (r := Retry.mk { BackoffPolicy.standard with maxRetries := 2 }
      (some 7) .timer 0) .initial h).1 2 rfl (by decide) (Or.inr (by decide))
    exact hpass.2.2.mono (fun x v hx => hx.1) fun v hv => by simp at hv
  · have hlast := (wrapUnary_runs (r := Retry.mk { BackoffPolicy.standard with maxRetries := 1 }
      (some 7) .timer 0) .initial h).2.1 (by decide) (by decide)
    refine hlast.2.2.mono ?_ fun _ hf => hf
    rintro x v ⟨⟨e, he, -, -, -, rfl⟩, -⟩
    cases he
    rfl

end RpcPolicy.Retry
