import Mathlib.Tactic.Linarith
import Mathlib.Tactic.Positivity
import RpcPolicy.Proofs.TokenBucket.Reading
/-! The rate to which a token bucket keeps, in exact arithmetic. Main statement: no window sees
more admissions than a full bucket and the tokens of its length, and an attempt that waits for one
token's time is admitted. -/

namespace RpcPolicy

/-- An instant in seconds from the start of the clock, exactly. -/
def Instant.exact (t : Instant) : ℚ := t.nanos / nanosPerSecond

variable {s t : Instant}

theorem nanosPerSecond_pos : (0 : ℚ) < nanosPerSecond := by
  norm_num [nanosPerSecond]

theorem Instant.exact_le_exact : s.exact ≤ t.exact ↔ s.nanos ≤ t.nanos := by
  unfold Instant.exact
  rw [div_le_div_iff_of_pos_right nanosPerSecond_pos, Nat.cast_le]

namespace TokenBucket.Reading

theorem seconds_eq (d : Duration) : (seconds d : ℚ) = d.nanos / nanosPerSecond := by
  have hsplit : (nanosPerSecond * d.seconds + d.subsecond : ℚ) = d.nanos := by
    exact_mod_cast Nat.div_add_mod d.nanos nanosPerSecond
  have hpos := nanosPerSecond_pos
  change (d.seconds : ℚ) + d.subsecond / nanosPerSecond = _
  rw [← hsplit, add_div, mul_div_cancel_left₀ _ hpos.ne']

theorem seconds_since (h : s.nanos ≤ t.nanos) :
    (seconds (t.since s) : ℚ) = t.exact - s.exact := by
  rw [seconds_eq, Instant.nanos_since, Nat.cast_sub h, sub_div]
  rfl

/-- A bucket that fills, and holds from nothing to its capacity, which is at least one token. -/
structure Sound (b : Reading ℚ) : Prop where
  rate : 0 < b.rate
  least : 1 ≤ b.capacity
  tokens : 0 ≤ b.tokens
  bounded : b.tokens ≤ b.capacity

/-- The tokens that are there at a time. -/
def level (b : Reading ℚ) (time : ℚ) : ℚ :=
  min (b.tokens + b.rate * (time - b.refilledAt.exact)) b.capacity

variable {b : Reading ℚ} {op : Op} {ops : List Op} {now start : Instant} {rate : ℚ}
  {burst : UInt32}

theorem sound_full (h : 0 < rate) : (full rate burst start).Sound := by
  have hcap : 1 ≤ (capacityOf rate burst : ℚ) := by
    unfold capacityOf
    split
    · change 1 ≤ max ((⌊rate⌋ : ℤ) : ℚ) ((1 : ℕ) : ℚ)
      rw [Nat.cast_one]
      exact le_max_right _ _
    · rename_i hne
      have hpos : 1 ≤ burst.toNat := by
        refine Nat.pos_of_ne_zero fun h0 => hne ?_
        exact UInt32.toNat_inj.mp h0
      change 1 ≤ ((burst.toNat : ℕ) : ℚ)
      exact_mod_cast hpos
  exact ⟨h, hcap, le_trans zero_le_one hcap, le_refl _⟩

theorem Sound.limited (h : b.Sound) : b.isUnlimited = false := by
  have hrate : ¬ b.rate ≤ ((0 : ℕ) : ℚ) := by
    rw [Nat.cast_zero]
    exact not_le.mpr h.rate
  change (false || decide (b.rate ≤ ((0 : ℕ) : ℚ))) = false
  rw [Bool.false_or, decide_eq_false hrate]

/-! ### The level -/

theorem level_le_capacity (b : Reading ℚ) (time : ℚ) : b.level time ≤ b.capacity :=
  min_le_right _ _

theorem level_le (b : Reading ℚ) (time : ℚ) :
    b.level time ≤ b.tokens + b.rate * (time - b.refilledAt.exact) :=
  min_le_left _ _

theorem Sound.level_nonneg (h : b.Sound) {time : ℚ} (ht : b.refilledAt.exact ≤ time) :
    0 ≤ b.level time := by
  have hrate := h.rate
  have hleast := h.least
  have htokens := h.tokens
  have hfilled : 0 ≤ b.rate * (time - b.refilledAt.exact) :=
    mul_nonneg hrate.le (sub_nonneg.mpr ht)
  exact le_min (by linarith) (by linarith)

theorem refill_eq (h : b.refilledAt.nanos ≤ now.nanos) :
    b.refill now = { b with tokens := b.level now.exact, refilledAt := now } := by
  have hlevel : (b.refill now).tokens = b.level now.exact := by
    change min (b.tokens + seconds (now.since b.refilledAt) * b.rate) b.capacity = _
    rw [seconds_since h, mul_comm]
    rfl
  rw [← hlevel]
  rfl

/-! ### One operation -/

theorem one_le_eq (x : ℚ) : Reckoning.le (Reckoning.ofNat 1) x = decide (1 ≤ x) := by
  change decide (((1 : ℕ) : ℚ) ≤ x) = _
  rw [Nat.cast_one]

/-- An attempt that finds a token takes it. -/
theorem Sound.tryAcquire_admitted (h : b.Sound) (hnow : b.refilledAt.nanos ≤ now.nanos)
    (h1 : 1 ≤ b.level now.exact) :
    b.tryAcquire now =
      (true, { b with tokens := b.level now.exact - 1, refilledAt := now }) := by
  have hrefill := refill_eq hnow
  have hle : Reckoning.le (Reckoning.ofNat 1) (b.refill now).tokens = true := by
    rw [hrefill, one_le_eq]
    exact decide_eq_true h1
  have hsub : Reckoning.sub (b.level now.exact) (Reckoning.ofNat 1) = b.level now.exact - 1 := by
    change b.level now.exact - ((1 : ℕ) : ℚ) = _
    rw [Nat.cast_one]
  rw [tryAcquire_of_le h.limited hle, hrefill, hsub]

/-- An attempt that finds less than a token leaves what is there. -/
theorem Sound.tryAcquire_refused (h : b.Sound) (hnow : b.refilledAt.nanos ≤ now.nanos)
    (h1 : b.level now.exact < 1) :
    b.tryAcquire now = (false, { b with tokens := b.level now.exact, refilledAt := now }) := by
  have hrefill := refill_eq hnow
  have hle : Reckoning.le (Reckoning.ofNat 1) (b.refill now).tokens = false := by
    rw [hrefill, one_le_eq]
    exact decide_eq_false (not_le.mpr h1)
  rw [tryAcquire_of_not_le h.limited hle, hrefill]

/-- An operation takes a token and is admitted, or leaves what is there. -/
theorem Sound.apply_cases (h : b.Sound) (hop : b.refilledAt.nanos ≤ op.time.nanos) :
    (1 ≤ b.level op.time.exact ∧
      b.apply op = { b with tokens := b.level op.time.exact - 1, refilledAt := op.time } ∧
      ∀ ops, b.admissions (op :: ops) = op.time :: (b.apply op).admissions ops) ∨
    (b.apply op = { b with tokens := b.level op.time.exact, refilledAt := op.time } ∧
      ∀ ops, b.admissions (op :: ops) = (b.apply op).admissions ops) := by
  cases op with
  | available now =>
    have hnow : b.refilledAt.nanos ≤ now.nanos := hop
    have hlook : (b.available now).2 = b.refill now :=
      congrArg Prod.snd (available_of_limited h.limited)
    exact Or.inr ⟨hlook.trans (refill_eq hnow), fun _ => rfl⟩
  | acquire now =>
    have hnow : b.refilledAt.nanos ≤ now.nanos := hop
    rcases le_or_gt 1 (b.level now.exact) with h1 | h1
    · have htry := h.tryAcquire_admitted hnow h1
      exact Or.inl ⟨h1, congrArg Prod.snd htry,
        fun _ => admissions_of_admitted (congrArg Prod.fst htry)⟩
    · have htry := h.tryAcquire_refused hnow h1
      exact Or.inr ⟨congrArg Prod.snd htry,
        fun _ => admissions_of_refused (congrArg Prod.fst htry)⟩

theorem Sound.apply (h : b.Sound) (hop : b.refilledAt.nanos ≤ op.time.nanos) :
    (b.apply op).Sound ∧ (b.apply op).rate = b.rate ∧ (b.apply op).capacity = b.capacity ∧
      (b.apply op).refilledAt = op.time := by
  have hcap := level_le_capacity b op.time.exact
  rcases h.apply_cases hop with ⟨h1, heq, -⟩ | ⟨heq, -⟩
  · rw [heq]
    exact ⟨⟨h.rate, h.least, sub_nonneg.mpr h1, (sub_le_self _ zero_le_one).trans hcap⟩,
      rfl, rfl, rfl⟩
  · rw [heq]
    have hlevel := h.level_nonneg (Instant.exact_le_exact.mpr hop)
    exact ⟨⟨h.rate, h.least, hlevel, hcap⟩, rfl, rfl, rfl⟩

/-- A schedule that goes on in order finds a sound bucket with the same rate and capacity. -/
theorem Sound.run {before after : List Op} (h : b.Sound)
    (hops : InOrder b.refilledAt (before ++ after)) :
    (b.run before).Sound ∧ (b.run before).rate = b.rate ∧
      (b.run before).capacity = b.capacity ∧ InOrder (b.run before).refilledAt after := by
  induction before generalizing b with
  | nil => exact ⟨h, rfl, rfl, hops⟩
  | cons op before ih =>
    obtain ⟨hop, hrest⟩ := hops
    obtain ⟨hsound, hrate, hcapacity, htime⟩ := h.apply hop
    rw [← htime] at hrest
    obtain ⟨hrun, hrate', hcapacity', hafter⟩ := ih hsound hrest
    exact ⟨hrun, hrate'.trans hrate, hcapacity'.trans hcapacity, hafter⟩

/-! ### Windows -/

/-- Whether an instant lies after `s` and not after `t`, in seconds. -/
def within (s t : ℚ) (x : Instant) : Bool := decide (s < x.exact ∧ x.exact ≤ t)

/-- Whether an instant does not lie after `t`, in seconds. -/
def upTo (t : ℚ) (x : Instant) : Bool := decide (x.exact ≤ t)

theorem upTo_of_within {s t : ℚ} {x : Instant} (h : within s t x = true) : upTo t x = true :=
  decide_eq_true (of_decide_eq_true h).2

theorem countP_within_le_upTo (s t : ℚ) (xs : List Instant) :
    xs.countP (within s t) ≤ xs.countP (upTo t) :=
  List.countP_mono_left fun _ _ h => upTo_of_within h

theorem le_of_mem_admissions {x : Instant} (hops : InOrder start ops)
    (hx : x ∈ b.admissions ops) : start.nanos ≤ x.nanos := by
  induction ops generalizing b start with
  | nil => cases hx
  | cons op ops ih =>
    obtain ⟨hop, hrest⟩ := hops
    cases op with
    | available now => exact le_trans hop (ih hrest hx)
    | acquire now =>
      rcases List.mem_append.mp hx with hnow | hlater
      · split at hnow
        · rw [List.mem_singleton.mp hnow]
          exact hop
        · cases hnow
      · exact le_trans hop (ih hrest hlater)

/-- A schedule admits nothing before its first operation. -/
theorem countP_upTo_eq_zero {time : ℚ} (hops : InOrder start ops) (ht : time < start.exact) :
    (b.admissions ops).countP (upTo time) = 0 := by
  rw [List.countP_eq_zero]
  intro x hx hle
  have hstart := Instant.exact_le_exact.mpr (le_of_mem_admissions hops hx)
  exact absurd (hstart.trans (of_decide_eq_true hle)) (not_le.mpr ht)

/-- Up to a time no more is admitted than the tokens that are there and those that come. -/
theorem Sound.countP_upTo_le {time : ℚ} (h : b.Sound) (hops : InOrder b.refilledAt ops)
    (ht : b.refilledAt.exact ≤ time) :
    ((b.admissions ops).countP (upTo time) : ℚ) ≤
      b.tokens + b.rate * (time - b.refilledAt.exact) := by
  have hcome : 0 ≤ b.rate * (time - b.refilledAt.exact) :=
    mul_nonneg h.rate.le (sub_nonneg.mpr ht)
  have htokens := h.tokens
  induction ops generalizing b with
  | nil =>
    rw [admissions, List.countP_nil, Nat.cast_zero]
    linarith
  | cons op ops ih =>
    obtain ⟨hop, hrest⟩ := hops
    obtain ⟨hsound, hrate, -, htime⟩ := h.apply hop
    have hhere : InOrder op.time (op :: ops) := ⟨le_refl _, hrest⟩
    rcases lt_or_ge time op.time.exact with hlate | hearly
    · rw [countP_upTo_eq_zero hhere hlate, Nat.cast_zero]
      linarith
    · rw [← htime] at hrest hearly
      have hcome' : 0 ≤ (b.apply op).rate * (time - (b.apply op).refilledAt.exact) :=
        mul_nonneg hsound.rate.le (sub_nonneg.mpr hearly)
      have hlater := ih hsound hrest hearly hcome' hsound.tokens
      have hlevel := level_le b op.time.exact
      rw [htime] at hearly
      rcases h.apply_cases hop with ⟨-, heq, hadmitted⟩ | ⟨heq, hleft⟩
      · have hin : upTo time op.time = true := decide_eq_true hearly
        rw [hadmitted, List.countP_cons_of_pos hin, Nat.cast_succ]
        rw [heq] at hlater ⊢
        linarith
      · rw [hleft]
        rw [heq] at hlater ⊢
        linarith

/-- In a window no more is admitted than a full bucket and the tokens that come. -/
theorem Sound.countP_within_le {s t : ℚ} (h : b.Sound) (hops : InOrder b.refilledAt ops)
    (hst : s ≤ t) :
    ((b.admissions ops).countP (within s t) : ℚ) ≤ b.capacity + b.rate * (t - s) := by
  have hcome : 0 ≤ b.rate * (t - s) := mul_nonneg h.rate.le (sub_nonneg.mpr hst)
  have hleast := h.least
  induction ops generalizing b with
  | nil =>
    rw [admissions, List.countP_nil, Nat.cast_zero]
    linarith
  | cons op ops ih =>
    obtain ⟨hop, hrest⟩ := hops
    obtain ⟨hsound, hrate, hcapacity, htime⟩ := h.apply hop
    rcases le_or_gt op.time.exact s with hbefore | hinside
    · -- The window opens later.
      have houtside : ¬ within s t op.time = true := by
        intro hin
        exact absurd (of_decide_eq_true hin).1 (not_lt.mpr hbefore)
      have hlater := ih hsound (by rwa [htime]) (by rwa [hrate]) (by rwa [hcapacity])
      rw [hrate, hcapacity] at hlater
      rcases h.apply_cases hop with ⟨-, -, hadmitted⟩ | ⟨-, hleft⟩
      · rwa [hadmitted, List.countP_cons_of_neg houtside]
      · rwa [hleft]
    · -- The bucket holds no more than its capacity at the first operation of the window.
      have hlevel := level_le_capacity b op.time.exact
      have hhere : InOrder op.time (op :: ops) := ⟨le_refl _, hrest⟩
      rcases lt_or_ge t op.time.exact with hlate | hearly
      · have hnone := countP_within_le_upTo s t (b.admissions (op :: ops))
        rw [countP_upTo_eq_zero hhere hlate,
          Nat.le_zero] at hnone
        rw [hnone, Nat.cast_zero]
        linarith
      · have hlater := hsound.countP_upTo_le (htime ▸ hrest) (htime ▸ hearly)
        have hfewer : (((b.apply op).admissions ops).countP (within s t) : ℚ) ≤
            ((b.apply op).admissions ops).countP (upTo t) := by
          exact_mod_cast countP_within_le_upTo s t _
        have hshort : b.rate * (t - op.time.exact) ≤ b.rate * (t - s) :=
          mul_le_mul_of_nonneg_left (by linarith) h.rate.le
        rcases h.apply_cases hop with ⟨-, heq, hadmitted⟩ | ⟨heq, hleft⟩
        · have hin : within s t op.time = true := decide_eq_true ⟨hinside, hearly⟩
          rw [hadmitted, List.countP_cons_of_pos hin, Nat.cast_succ]
          rw [heq] at hlater hfewer ⊢
          linarith
        · rw [hleft]
          rw [heq] at hlater hfewer ⊢
          linarith

/-! ### Waiting -/

/-- A bucket with the tokens of the time since an instant, as far as they fit, still has them
later. -/
theorem Sound.level_filled {time : ℚ} {last : Instant} (h : b.Sound)
    (hlast : min b.capacity (b.rate * (b.refilledAt.exact - last.exact)) ≤ b.tokens)
    (ht : b.refilledAt.exact ≤ time) :
    min b.capacity (b.rate * (time - last.exact)) ≤ b.level time := by
  have hcome : 0 ≤ b.rate * (time - b.refilledAt.exact) :=
    mul_nonneg h.rate.le (sub_nonneg.mpr ht)
  refine le_min ?_ (min_le_left _ _)
  rcases min_le_iff.mp hlast with hfull | hfilled
  · exact (min_le_left _ _).trans (by linarith)
  · exact (min_le_right _ _).trans (by linarith)

/-- After any schedule a bucket has the tokens of the time since the last admission, as far as
they fit. -/
theorem Sound.run_filled {last : Instant} (h : b.Sound) (hops : InOrder b.refilledAt ops)
    (hlast : min b.capacity (b.rate * (b.refilledAt.exact - last.exact)) ≤ b.tokens) :
    min (b.run ops).capacity ((b.run ops).rate * ((b.run ops).refilledAt.exact -
      ((b.admissions ops).getLast?.getD last).exact)) ≤ (b.run ops).tokens := by
  induction ops generalizing b last with
  | nil => exact hlast
  | cons op ops ih =>
    obtain ⟨hop, hrest⟩ := hops
    obtain ⟨hsound, -, -, htime⟩ := h.apply hop
    have hrun : b.run (op :: ops) = (b.apply op).run ops := rfl
    rw [hrun]
    rcases h.apply_cases hop with ⟨h1, heq, hadmitted⟩ | ⟨heq, hleft⟩
    · rw [hadmitted, List.getLast?_cons, Option.getD_some]
      refine ih hsound (by rwa [htime]) ?_
      rw [heq, sub_self, mul_zero]
      exact (min_le_right _ _).trans (sub_nonneg.mpr h1)
    · rw [hleft]
      refine ih hsound (by rwa [htime]) ?_
      rw [heq]
      exact h.level_filled hlast (Instant.exact_le_exact.mpr hop)

/-! ### The guarantee -/

theorem capacity_full (rate : ℚ) (burst : UInt32) (start : Instant) :
    (full rate burst start).capacity =
      if burst = 0 then max 1 (⌊rate⌋ : ℚ) else (burst.toNat : ℚ) := by
  change capacityOf rate burst = _
  unfold capacityOf
  split
  · change max (⌊rate⌋ : ℚ) ((1 : ℕ) : ℚ) = _
    rw [Nat.cast_one, max_comm]
  · rfl

/-- In exact arithmetic no window sees more admissions than the capacity and the tokens of its
length, and an attempt is admitted once the time of one token has passed. -/
theorem admissions_keep_rate (rate : ℚ) (burst : UInt32) (start : Instant) (ops : List Op)
    (hrate : 0 < rate) (hops : InOrder start ops) :
    let b : Reading ℚ := full rate burst start
    let capacity : ℚ := if burst = 0 then max 1 ⌊rate⌋ else burst.toNat
    (∀ s t : ℚ, s ≤ t →
      ((b.admissions ops).countP (within s t) : ℚ) ≤ capacity + rate * (t - s)) ∧
    (∀ before now after, ops = before ++ .acquire now :: after →
      ((b.admissions before).getLast?.getD start).exact + 1 / rate ≤ now.exact →
      ((b.run before).tryAcquire now).1 = true) ∧
    ∀ r : Binary64,
      (full r burst start).run ops = ((TokenBucket.full r burst start).run ops).toReading ∧
      (full r burst start).admissions ops = (TokenBucket.full r burst start).admissions ops := by
  intro b capacity
  have hcapacity : b.capacity = capacity := capacity_full rate burst start
  have hsound : b.Sound := sound_full hrate
  refine ⟨?window, ?waiting, ?doubles⟩
  case window =>
    intro s t hst
    rw [← hcapacity]
    exact hsound.countP_within_le hops hst
  case waiting =>
    rintro before now after rfl hwait
    obtain ⟨hrun, hrate', -, hnow⟩ := hsound.run hops
    have hbefore : InOrder start before := hops.of_append
    have hfull : min b.capacity (b.rate * (b.refilledAt.exact - start.exact)) ≤ b.tokens :=
      min_le_left _ _
    have hfilled := hrun.level_filled (hsound.run_filled hbefore hfull)
      (Instant.exact_le_exact.mpr hnow.1)
    have htoken : 1 ≤ (b.run before).rate *
        (now.exact - ((b.admissions before).getLast?.getD start).exact) := by
      rw [hrate', ← div_le_iff₀' hsound.rate]
      exact le_sub_iff_add_le'.mpr hwait
    have hlevel := (le_min hrun.least htoken).trans hfilled
    exact congrArg Prod.fst (hrun.tryAcquire_admitted hnow.1 hlevel)
  case doubles =>
    intro r
    exact ⟨run_toReading (TokenBucket.full r burst start) ops,
      admissions_toReading (TokenBucket.full r burst start) ops⟩

/-- A full bucket of two tokens at two a second, and a third attempt half a second later. -/
theorem admissions_keep_rate_thirdAttempt :
    let later := Instant.start.after (.ofMillis 500)
    let before : List Op := [.acquire .start, .acquire .start, .available .start]
    let b : Reading ℚ := full 2 2 .start
    InOrder .start (before ++ [.acquire later]) ∧
      ((b.admissions (before ++ [.acquire later])).countP (within (-1) (1 / 2)) : ℚ) ≤
        2 + 2 * (1 / 2 - -1) ∧
      ((b.run before).tryAcquire later).1 = true := by
  intro later before b
  have hops : InOrder .start (before ++ [.acquire later]) := by decide
  have h := admissions_keep_rate 2 2 .start _ (by norm_num) hops
  have hwait : ((b.admissions before).getLast?.getD .start).exact + 1 / 2 ≤ later.exact := by
    decide +kernel
  exact ⟨hops, h.1 (-1) (1 / 2) (by norm_num), h.2.1 before later [] rfl hwait⟩

end TokenBucket.Reading

end RpcPolicy
