import RpcPolicy.Proofs.Number.Nonneg
import RpcPolicy.TokenBucket
/-! What every history of a token bucket keeps. Main statement: its tokens stay between nothing and
its capacity, and an attempt is admitted exactly when one is there. -/

namespace RpcPolicy

open Binary64

/-- The length of any time is a number of seconds from zero on. -/
theorem Duration.nonneg_toBinary64 (d : Duration) : d.toBinary64.Nonneg := by
  have hle : nanosPerSecond < 2 ^ 53 := by decide
  have nanos_pos : 0 < nanosPerSecond * unitsPerOne := by decide +kernel
  have hpart : (Binary64.ofNat d.subsecond / Binary64.ofNat nanosPerSecond).Nonneg := by
    rw [ofNat_eq hle]
    exact (nonneg_ofNat _).div_finite (Nat.ne_of_gt nanos_pos)
  exact (nonneg_ofNat _).add hpart

namespace TokenBucket

/-- What may be done with a bucket, and when. -/
inductive Op where
  | acquire (now : Instant)
  | available (now : Instant)

/-- The bucket after an operation. -/
def apply (b : TokenBucket) : Op → TokenBucket
  | .acquire now => (b.tryAcquire now).2
  | .available now => (b.available now).2

/-- The bucket after some operations. -/
def run (b : TokenBucket) (ops : List Op) : TokenBucket := ops.foldl apply b

/-- A bucket that limits, and holds from nothing to its capacity, which is at least one token. -/
structure Sound (b : TokenBucket) : Prop where
  limited : b.isUnlimited = false
  tokens : b.tokens.Nonneg
  capacity : b.capacity.Nonneg
  bounded : b.tokens.le b.capacity = true
  least : (1 : Binary64).le b.capacity = true

variable {b : TokenBucket} {rate : Binary64} {burst : UInt32} {now start : Instant}

/-! ### The rate -/

theorem nonneg_rate (h : isUnlimitedRate rate = false) : rate.Nonneg := by
  unfold isUnlimitedRate at h
  rw [Bool.or_eq_false_iff] at h
  exact nonneg_of_not_le_zero h.1 h.2

/-- Exactly the positive rates limit. -/
theorem isUnlimitedRate_eq (rate : Binary64) :
    isUnlimitedRate rate = !(0 : Binary64).lt rate := by
  unfold isUnlimitedRate
  rw [zero_eq]
  cases rate with
  | nan => rfl
  | infinite negative =>
    cases negative with
    | false => rfl
    | true => rfl
  | finite negative m hm =>
    have hzero : ∀ n : Int, (decide (n < 0) || n == 0) = !decide (0 < n) := by
      intro n
      rw [Bool.eq_iff_iff]
      simp only [Bool.or_eq_true, decide_eq_true_eq, beq_iff_eq, Bool.not_eq_true',
        decide_eq_false_iff_not]
      omega
    exact hzero (signedUnits negative m)

theorem isUnlimitedRate_of_pos (h : (0 : Binary64).lt rate = true) :
    isUnlimitedRate rate = false := by
  rw [isUnlimitedRate_eq, h, Bool.not_true]

/-! ### Operations that give an answer -/

theorem tryAcquire_of_unlimited (h : b.isUnlimited = true) : b.tryAcquire now = (true, b) := by
  rw [tryAcquire, if_pos h]

theorem available_of_limited (h : b.isUnlimited = false) :
    b.available now = ((b.refill now).tokens, b.refill now) := by
  rw [available, h, if_neg Bool.false_ne_true]

theorem tryAcquire_of_le (h : b.isUnlimited = false)
    (hle : (1 : Binary64).le (b.refill now).tokens = true) :
    b.tryAcquire now = (true, { b.refill now with tokens := (b.refill now).tokens - 1 }) := by
  rw [tryAcquire, h, if_neg Bool.false_ne_true]
  simp only [hle, if_true]

theorem tryAcquire_of_not_le (h : b.isUnlimited = false)
    (hle : (1 : Binary64).le (b.refill now).tokens = false) :
    b.tryAcquire now = (false, b.refill now) := by
  rw [tryAcquire, h, if_neg Bool.false_ne_true]
  simp only [hle, Bool.false_eq_true, if_false]

theorem tryAcquire_fst (h : b.isUnlimited = false) :
    (b.tryAcquire now).1 = (1 : Binary64).le (b.refill now).tokens := by
  cases hle : (1 : Binary64).le (b.refill now).tokens with
  | true => rw [tryAcquire_of_le h hle]
  | false => rw [tryAcquire_of_not_le h hle]

/-! ### What operations keep -/

theorem sound_full (h : isUnlimitedRate rate = false) : (full rate burst start).Sound := by
  have hrate := nonneg_rate h
  have hcap : (capacityOf rate burst).Nonneg ∧
      (1 : Binary64).le (capacityOf rate burst) = true := by
    unfold capacityOf
    split
    · exact ⟨hrate.floor.max nonneg_one, hrate.floor.le_max_right nonneg_one⟩
    · rename_i hne
      have hpos : 0 < burst.toNat := by
        refine Nat.pos_of_ne_zero fun h0 => hne ?_
        exact UInt32.toNat_inj.mp h0
      exact ⟨nonneg_ofNat _, one_le_ofNat hpos⟩
  exact ⟨h, hcap.1, hcap.1, hcap.1.le_refl, hcap.2⟩

/-- Refilling takes nothing away. For an infinite rate and no time the product is a NaN, and the
bucket is full. -/
theorem Sound.refill (h : b.Sound) (now : Instant) :
    (b.refill now).Sound ∧ b.tokens.le (b.refill now).tokens = true := by
  have hrate : b.rate.Nonneg := nonneg_rate h.limited
  have hmul := (now.since b.refilledAt).nonneg_toBinary64.mul hrate
  have htokens : (b.refill now).tokens =
      (b.tokens + (now.since b.refilledAt).toBinary64 * b.rate).min b.capacity := rfl
  rcases hmul with hnan | hadd
  · rw [hnan, add_nan, nan_min] at htokens
    refine ⟨⟨h.limited, ?_, h.capacity, ?_, h.least⟩, ?_⟩
    · rw [htokens]
      exact h.capacity
    · rw [htokens]
      exact h.capacity.le_refl
    · rw [htokens]
      exact h.bounded
  · have hsum := h.tokens.add hadd
    refine ⟨⟨h.limited, ?_, h.capacity, ?_, h.least⟩, ?_⟩
    · rw [htokens]
      exact hsum.min h.capacity
    · rw [htokens]
      exact hsum.min_le_right h.capacity
    · rw [htokens]
      exact hsum.le_min h.capacity (h.tokens.le_add hadd) h.bounded

/-- Taking a token from a bucket that has one. -/
theorem Sound.take (h : b.Sound) (hle : (1 : Binary64).le b.tokens = true) :
    Sound { b with tokens := b.tokens - 1 } := by
  have hsub := h.tokens.sub_one hle
  exact ⟨h.limited, hsub.1, h.capacity, hsub.1.le_trans h.tokens h.capacity hsub.2 h.bounded,
    h.least⟩

theorem Sound.tryAcquire (h : b.Sound) (now : Instant) : (b.tryAcquire now).2.Sound := by
  cases hle : (1 : Binary64).le (b.refill now).tokens with
  | true =>
    rw [tryAcquire_of_le h.limited hle]
    exact (h.refill now).1.take hle
  | false =>
    rw [tryAcquire_of_not_le h.limited hle]
    exact (h.refill now).1

theorem Sound.available (h : b.Sound) (now : Instant) : (b.available now).2.Sound := by
  rw [available_of_limited h.limited]
  exact (h.refill now).1

theorem Sound.apply (h : b.Sound) (op : Op) : (b.apply op).Sound := by
  cases op with
  | acquire now => exact h.tryAcquire now
  | available now => exact h.available now

theorem Sound.run (h : b.Sound) (ops : List Op) : (b.run ops).Sound := by
  induction ops generalizing b with
  | nil => exact h
  | cons op ops ih => exact ih (h.apply op)

/-! ### What operations leave alone -/

theorem rate_capacity_tryAcquire (b : TokenBucket) (now : Instant) :
    (b.tryAcquire now).2.rate = b.rate ∧ (b.tryAcquire now).2.capacity = b.capacity := by
  cases h : b.isUnlimited with
  | true =>
    rw [tryAcquire_of_unlimited h]
    exact ⟨rfl, rfl⟩
  | false =>
    cases hle : (1 : Binary64).le (b.refill now).tokens with
    | true =>
      rw [tryAcquire_of_le h hle]
      exact ⟨rfl, rfl⟩
    | false =>
      rw [tryAcquire_of_not_le h hle]
      exact ⟨rfl, rfl⟩

theorem rate_capacity_available (b : TokenBucket) (now : Instant) :
    (b.available now).2.rate = b.rate ∧ (b.available now).2.capacity = b.capacity := by
  unfold TokenBucket.available
  split
  · exact ⟨rfl, rfl⟩
  · exact ⟨rfl, rfl⟩

theorem rate_capacity_run (b : TokenBucket) (ops : List Op) :
    (b.run ops).rate = b.rate ∧ (b.run ops).capacity = b.capacity := by
  induction ops generalizing b with
  | nil => exact ⟨rfl, rfl⟩
  | cons op ops ih =>
    have hop : (b.apply op).rate = b.rate ∧ (b.apply op).capacity = b.capacity := by
      cases op with
      | acquire now => exact rate_capacity_tryAcquire b now
      | available now => exact rate_capacity_available b now
    exact ⟨(ih (b.apply op)).1.trans hop.1, (ih (b.apply op)).2.trans hop.2⟩

/-- After any history the tokens of a bucket are between nothing and its capacity, and an attempt is
admitted exactly when one is there after refilling. -/
theorem run_full_law (rate : Binary64) (burst : UInt32) (start : Instant) (ops : List Op) :
    (isUnlimitedRate rate = false →
      let b := (full rate burst start).run ops
      b.capacity = capacityOf rate burst ∧ (1 : Binary64).le b.capacity = true ∧
      b.tokens.isNaN = false ∧ (0 : Binary64).le b.tokens = true ∧
      b.tokens.le b.capacity = true ∧
      ∀ now,
        ((b.tryAcquire now).1 = true ↔ (1 : Binary64).le (b.available now).1 = true) ∧
        ((b.tryAcquire now).1 = true →
          (b.tryAcquire now).2.tokens = (b.available now).1 - 1) ∧
        ((b.tryAcquire now).1 = false →
          (b.tryAcquire now).2.tokens = (b.available now).1 ∧
          b.tokens.le (b.tryAcquire now).2.tokens = true)) ∧
    (rate.isNaN = true ∨ rate.le 0 = true →
      ∀ now, (((full rate burst start).run ops).tryAcquire now).1 = true) := by
  refine ⟨?limited, ?unlimited⟩
  case limited =>
    intro hrate b
    have h : b.Sound := (sound_full hrate).run ops
    refine ⟨(rate_capacity_run _ ops).2, h.least, h.tokens.isNaN, h.tokens.zero_le, h.bounded, ?_⟩
    intro now
    rw [available_of_limited h.limited, tryAcquire_fst h.limited]
    refine ⟨Iff.rfl, ?_, ?_⟩
    · intro hle
      rw [tryAcquire_of_le h.limited hle]
    · intro hle
      rw [tryAcquire_of_not_le h.limited hle]
      exact ⟨rfl, (h.refill now).2⟩
  case unlimited =>
    intro hrate now
    have h : ((full rate burst start).run ops).isUnlimited = true := by
      have hr : ((full rate burst start).run ops).rate = rate :=
        (rate_capacity_run _ ops).1
      rw [isUnlimited, hr, isUnlimitedRate, Bool.or_eq_true]
      exact hrate
    rw [tryAcquire_of_unlimited h]

/-- An infinite rate and no time between the looks, and a rate that is a NaN. -/
theorem run_full_law_infinity :
    let b := (full infinity 0 .start).run [.acquire .start, .available .start]
    isUnlimitedRate infinity = false ∧ b.tokens.isNaN = false ∧
      b.tokens.le b.capacity = true ∧ (1 : Binary64).le b.capacity = true ∧
      ((full nan 3 .start).tryAcquire .start).1 = true := by
  intro b
  have hrate : isUnlimitedRate infinity = false := by decide +kernel
  have h := (run_full_law infinity 0 .start [.acquire .start, .available .start]).1 hrate
  have hnan := (run_full_law nan 3 .start []).2 (Or.inl rfl) .start
  exact ⟨hrate, h.2.2.1, h.2.2.2.2.1, h.2.1, hnan⟩

end TokenBucket

end RpcPolicy
