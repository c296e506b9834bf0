import RpcPolicy.Proofs.Number.Error
import RpcPolicy.Proofs.TokenBucket.Rate
/-! What rounding does to the tokens of a bucket. Main statement: an operation on a bucket with a
finite rate loses or gains no more than one part in `2^50` of the capacity. -/

namespace RpcPolicy

open Binary64

theorem units_limit : (2 ^ 70 * unitsPerOne : ℚ) ≤ unitsOverflow := by
  have h : 2 ^ 70 * unitsPerOne ≤ unitsOverflow := by decide +kernel
  exact_mod_cast h

namespace Duration

/-- The units of a length of time in seconds are those of its two parts. -/
theorem units_eq (d : Duration) :
    (d.seconds * unitsPerOne + unitsPerOne * (d.subsecond / nanosPerSecond) : ℚ) =
      unitsPerOne * (d.nanos / nanosPerSecond) := by
  have hsplit : (d.seconds + d.subsecond / nanosPerSecond : ℚ) = d.nanos / nanosPerSecond :=
    TokenBucket.Reading.seconds_eq d
  rw [← hsplit]
  ring

/-- No length of time comes near the overflow threshold. -/
theorem units_lt (d : Duration) :
    (2 * (unitsPerOne * (d.nanos / nanosPerSecond)) + 0 : ℚ) < unitsOverflow := by
  have hunit := unitsPerOne_pos
  have hlimit := units_limit
  have hseconds : (d.seconds : ℚ) * unitsPerOne ≤ 2 ^ 64 * unitsPerOne := by
    gcongr
    exact_mod_cast d.seconds_lt.le
  have hpart : unitsPerOne * (d.subsecond / nanosPerSecond : ℚ) ≤ unitsPerOne * 1 := by
    gcongr
    rw [div_le_one nanosPerSecond_pos]
    exact_mod_cast d.subsecond_lt.le
  have hparts := d.units_eq
  linarith

/-- The part of a second is rounded once. -/
theorem part_near (d : Duration) :
    Near roundoff 0
      (nearestUnits (d.subsecond * unitsPerOne * unitsPerOne) (nanosPerSecond * unitsPerOne))
      (unitsPerOne * (d.subsecond / nanosPerSecond)) := by
  have hpos : 0 < unitsPerOne := by decide +kernel
  have hexact : ((d.subsecond * unitsPerOne * unitsPerOne : ℕ) : ℚ) /
      (nanosPerSecond * unitsPerOne : ℕ) = unitsPerOne * (d.subsecond / nanosPerSecond) := by
    have hne := unitsPerOne_pos.ne'
    push_cast
    rw [mul_div_mul_right _ _ hne, mul_comm _ (unitsPerOne : ℚ), mul_div_assoc]
  rcases Nat.eq_zero_or_pos d.subsecond with h0 | hsub
  · rw [h0, Nat.zero_mul, Nat.zero_mul, nearestUnits_zero, Nat.cast_zero, zero_div, mul_zero]
    exact near_refl roundoff_pos.le le_rfl le_rfl
  · -- A nanosecond has all fifty-three bits.
    have hnormal : 2 ^ 52 ≤ unitsPerOne / nanosPerSecond := by decide +kernel
    rw [← hexact]
    refine nearestUnits_near_share ?_
    rw [Nat.mul_div_mul_right _ _ hpos]
    exact hnormal.trans (Nat.div_le_div_right (Nat.le_mul_of_pos_left _ hsub))

/-- A length of time in seconds is rounded three times. -/
theorem toBinary64_near (d : Duration) :
    ∃ m hm, d.toBinary64 = finite false m hm ∧
      Near (3 * roundoff) 0 m (unitsPerOne * (d.nanos / nanosPerSecond)) := by
  have hunit := unitsPerOne_pos
  have hshare : roundoff ≤ 1 := by norm_num [roundoff]
  have hlimit := d.units_lt
  have hparts := d.units_eq
  have hseconds0 : 0 ≤ (d.seconds : ℚ) * unitsPerOne := by positivity
  have hpart0 : 0 ≤ unitsPerOne * (d.subsecond / nanosPerSecond : ℚ) := by positivity
  -- The two parts, each rounded.
  have hseconds := nearestUnits_near_whole (d.seconds * unitsPerOne)
  have hpart := d.part_near
  push_cast at hseconds
  obtain ⟨_, hsecondsEq⟩ := nearest_of_lt (hseconds.lt_overflow hshare hseconds0 (by linarith))
  obtain ⟨_, hpartEq⟩ := nearest_of_lt (hpart.lt_overflow hshare hpart0 (by linarith))
  -- Their sum, rounded once more.
  have hsum := nearestUnits_near_whole (nearestUnits (d.seconds * unitsPerOne) 1 +
    nearestUnits (d.subsecond * unitsPerOne * unitsPerOne) (nanosPerSecond * unitsPerOne))
  push_cast at hsum
  have hrounded := hsum.trans roundoff_pos.le (hseconds.add hpart)
  rw [hparts] at hrounded
  have hall := hrounded.mono (by positivity)
    (by norm_num [roundoff] : _ ≤ 3 * roundoff) (by norm_num : _ ≤ (0 : ℚ))
  obtain ⟨hm, hsumEq⟩ := nearest_of_lt (hall.lt_overflow (by norm_num [roundoff])
    (by positivity) hlimit)
  refine ⟨_, hm, ?_, hall⟩
  have hden : nanosPerSecond * unitsPerOne ≠ 0 := by decide +kernel
  have hsmall : d.subsecond < 2 ^ 53 := d.subsecond_lt.trans (by decide)
  have hofNat : Binary64.ofNat d.seconds = nearest false (d.seconds * unitsPerOne) 1 := rfl
  rw [Duration.toBinary64, hofNat, hsecondsEq, ofNat_eq hsmall, ofNat_eq (by decide),
    div_finite hden, hpartEq, add_finite, hsumEq]

end Duration

namespace TokenBucket

/-- What comes in a time is rounded once more. -/
theorem income_near {r s : Nat} {time : ℚ} (htime : 0 ≤ time)
    (hnear : Near (3 * roundoff) 0 s (unitsPerOne * time)) :
    Near (9 / 2 * roundoff) (1 / 2) (nearestUnits (s * r) unitsPerOne) (time * r) := by
  have hunit : 0 < unitsPerOne := by decide +kernel
  have hproduct := nearestUnits_near (s * r) hunit
  have hfactor := hnear.mul_right (div_nonneg r.cast_nonneg unitsPerOne_pos.le)
  have hfilled : unitsPerOne * time * (r / unitsPerOne) = time * r := by
    have hne := unitsPerOne_pos.ne'
    field_simp
  push_cast at hproduct
  rw [hfilled, zero_mul, ← mul_div_assoc] at hfactor
  exact (hproduct.trans roundoff_pos.le hfactor).mono (by positivity) (by norm_num [roundoff])
    (by norm_num)

/-- What is there and what comes is rounded once more, and what lies above the capacity does not
count. -/
theorem refill_near {t c r s : Nat} (ht : Representable t) (hc : Representable c)
    (hr : Representable r) (hs : Representable s) {time : ℚ} (htime : 0 ≤ time)
    (hnear : Near (3 * roundoff) 0 s (unitsPerOne * time)) :
    ∃ m hm, (finite false t ht + finite false s hs * finite false r hr).min (finite false c hc) =
        finite false m hm ∧
      |(m - min (t + time * r) c : ℚ)| ≤ 6 * roundoff * c + 1 := by
  have hu := roundoff_pos
  have hshare : 6 * roundoff ≤ 1 := by norm_num [roundoff]
  have hfill0 : 0 ≤ t + time * r := by positivity
  have htokens : Near (9 / 2 * roundoff) 0 t t := near_refl (by positivity) le_rfl t.cast_nonneg
  have hsum := htokens.add (income_near (r := r) htime hnear)
  rcases Nat.lt_or_ge (nearestUnits (s * r) unitsPerOne) unitsOverflow with hlt | hge
  · obtain ⟨_, hproduct⟩ := nearest_of_lt hlt
    obtain ⟨m, hm, heq, hval⟩ := nearest_min (t + nearestUnits (s * r) unitsPerOne) 1 hc
    have hround := nearestUnits_near_whole (t + nearestUnits (s * r) unitsPerOne)
    push_cast at hround
    have hall : Near (6 * roundoff) 1 (nearestUnits (t + nearestUnits (s * r) unitsPerOne) 1)
        (t + time * r) :=
      (hround.trans hu.le hsum).mono hfill0 (by norm_num [roundoff]) (by norm_num [roundoff])
    refine ⟨m, hm, ?_, ?_⟩
    · rw [mul_finite, hproduct, add_finite, heq]
    · rw [hval, Nat.cast_min]
      exact hall.min (by positivity) hshare c.cast_nonneg zero_le_one
  · -- The product overflows, and so lies above the capacity.
    have hover := hc.1
    have hall : Near (6 * roundoff) 1 (t + nearestUnits (s * r) unitsPerOne) (t + time * r) :=
      hsum.mono hfill0 (by norm_num [roundoff]) (by norm_num)
    refine ⟨c, hc, ?_, ?_⟩
    · rw [mul_finite, nearest_of_ge hge]
      rfl
    · have hcapacity := hall.min (by positivity) hshare c.cast_nonneg zero_le_one
      have hlarge : (c : ℚ) ≤ t + nearestUnits (s * r) unitsPerOne := by
        exact_mod_cast (by omega : c ≤ t + nearestUnits (s * r) unitsPerOne)
      rwa [min_eq_right hlarge] at hcapacity

/-! ### One operation -/

/-- A bucket that limits, at a finite rate and with a finite capacity. -/
structure Measured (b : TokenBucket) : Prop where
  sound : b.Sound
  rate : b.rate.isFinite = true
  capacity : b.capacity.isFinite = true

/-- The bucket read in exact arithmetic. -/
def exact (b : TokenBucket) : Reading ℚ :=
  ⟨b.rate.value, b.capacity.value, b.tokens.value, b.refilledAt⟩

/-- Whether an operation is an attempt that is admitted. -/
def admits (b : TokenBucket) : Op → Bool
  | .acquire now => (b.tryAcquire now).1
  | .available _ => false

/-- The tokens that an operation takes. -/
def taken (b : TokenBucket) (op : Op) : ℚ := if b.admits op then 1 else 0

/-- By how much rounding moves the tokens when the bucket is refilled. -/
def refillSlip (b : TokenBucket) (now : Instant) : ℚ :=
  |(b.refill now).tokens.value - b.exact.level now.exact|

/-- By how much rounding moves the tokens in an operation, when the bucket is refilled and when a
token is taken. -/
def slip (b : TokenBucket) (op : Op) : ℚ :=
  b.refillSlip op.time +
    |(b.apply op).tokens.value - ((b.refill op.time).tokens.value - b.taken op)|

/-- By how much rounding moves the tokens in some operations. -/
def slips (b : TokenBucket) : List Op → ℚ
  | [] => 0
  | op :: ops => b.slip op + (b.apply op).slips ops

theorem slips_cons (b : TokenBucket) (op : Op) (ops : List Op) :
    b.slips (op :: ops) = b.slip op + (b.apply op).slips ops := rfl

theorem run_cons (b : TokenBucket) (op : Op) (ops : List Op) :
    b.run (op :: ops) = (b.apply op).run ops := rfl

variable {b : TokenBucket} {op : Op} {ops : List Op} {now : Instant}

theorem Measured.units (h : b.Measured) :
    ∃ r hr c hc t ht, b.rate = finite false r hr ∧ b.capacity = finite false c hc ∧
      b.tokens = finite false t ht ∧ t ≤ c ∧ unitsPerOne ≤ c := by
  have hbounded := h.sound.bounded
  have hleast := h.sound.least
  rcases (nonneg_rate h.sound.limited).cases with hrate | ⟨r, hr, hrate⟩
  · have hfinite := h.rate
    rw [hrate] at hfinite
    cases hfinite
  · rcases h.sound.capacity.cases with hcapacity | ⟨c, hc, hcapacity⟩
    · have hfinite := h.capacity
      rw [hcapacity] at hfinite
      cases hfinite
    · rcases h.sound.tokens.cases with htokens | ⟨t, ht, htokens⟩
      · rw [htokens, hcapacity] at hbounded
        cases hbounded
      · rw [htokens, hcapacity, le_finite] at hbounded
        rw [hcapacity, one_eq, le_finite, Nat.one_mul] at hleast
        exact ⟨r, hr, c, hc, t, ht, hrate, hcapacity, htokens, hbounded, hleast⟩

theorem apply_cases (h : b.isUnlimited = false) (op : Op) :
    (b.admits op = true ∧ (1 : Binary64).le (b.refill op.time).tokens = true ∧
      b.apply op = { b.refill op.time with tokens := (b.refill op.time).tokens - 1 }) ∨
    (b.admits op = false ∧ b.apply op = b.refill op.time) := by
  cases op with
  | available now => exact Or.inr ⟨rfl, congrArg Prod.snd (available_of_limited h)⟩
  | acquire now =>
    cases hle : (1 : Binary64).le (b.refill now).tokens with
    | true =>
      have htry := tryAcquire_of_le h hle
      exact Or.inl ⟨congrArg Prod.fst htry, hle, congrArg Prod.snd htry⟩
    | false =>
      have htry := tryAcquire_of_not_le h hle
      exact Or.inr ⟨congrArg Prod.fst htry, congrArg Prod.snd htry⟩

theorem Measured.apply (h : b.Measured) (op : Op) :
    (b.apply op).Measured ∧ (b.apply op).rate = b.rate ∧ (b.apply op).capacity = b.capacity ∧
      (b.apply op).refilledAt = op.time := by
  have hsound := h.sound.apply op
  rcases apply_cases h.sound.limited op with ⟨-, -, heq⟩ | ⟨-, heq⟩
  · rw [heq] at hsound ⊢
    exact ⟨⟨hsound, h.rate, h.capacity⟩, rfl, rfl, rfl⟩
  · rw [heq] at hsound ⊢
    exact ⟨⟨hsound, h.rate, h.capacity⟩, rfl, rfl, rfl⟩

/-- A schedule that goes on in order finds a measured bucket. -/
theorem Measured.run {before after : List Op} (h : b.Measured)
    (hops : InOrder b.refilledAt (before ++ after)) :
    (b.run before).Measured ∧ InOrder (b.run before).refilledAt after := by
  induction before generalizing b with
  | nil => exact ⟨h, hops⟩
  | cons op before ih =>
    obtain ⟨-, hrest⟩ := hops
    obtain ⟨hmeasured, -, -, htime⟩ := h.apply op
    rw [← htime] at hrest
    exact ih hmeasured hrest

theorem Measured.refill (h : b.Measured) (now : Instant) : (b.refill now).Measured :=
  ⟨(h.sound.refill now).1, h.rate, h.capacity⟩

theorem Measured.one_le (h : b.Measured) :
    (1 : Binary64).le b.tokens = true ↔ 1 ≤ b.tokens.value := by
  obtain ⟨r, hr, c, hc, t, ht, hrate, hcapacity, htokens, hle, hleast⟩ := h.units
  rw [htokens, one_eq, le_finite, Nat.one_mul, value_finite, one_le_div unitsPerOne_pos,
    Nat.cast_le]

theorem Measured.lt_one (h : b.Measured) :
    (1 : Binary64).le b.tokens = false ↔ b.tokens.value < 1 := by
  rw [← Bool.not_eq_true, h.one_le, not_le]

/-- The exact level, in units. -/
theorem level_units {r c t : Nat} {hr : Representable r} {hc : Representable c}
    {ht : Representable t} (hrate : b.rate = finite false r hr)
    (hcapacity : b.capacity = finite false c hc) (htokens : b.tokens = finite false t ht)
    (hnow : b.refilledAt.nanos ≤ now.nanos) :
    b.exact.level now.exact * unitsPerOne =
      min (t + (now.since b.refilledAt).nanos / nanosPerSecond * r : ℚ) c := by
  have htime : ((now.since b.refilledAt).nanos / nanosPerSecond : ℚ) =
      now.exact - b.refilledAt.exact := by
    rw [Instant.nanos_since, Nat.cast_sub hnow, sub_div]
    rfl
  change min (b.tokens.value + b.rate.value * (now.exact - b.refilledAt.exact))
    b.capacity.value * unitsPerOne = _
  rw [← htime, min_mul_of_nonneg _ _ unitsPerOne_pos.le, add_mul, mul_right_comm, hrate,
    hcapacity, htokens, value_units, value_units, value_units, mul_comm (r : ℚ)]

/-- Refilling rounds by no more than seven parts in `2^53` of the capacity. -/
theorem Measured.refillSlip_le (h : b.Measured) (hnow : b.refilledAt.nanos ≤ now.nanos) :
    b.refillSlip now ≤ 7 * roundoff * b.capacity.value := by
  obtain ⟨r, hr, c, hc, t, ht, hrate, hcapacity, htokens, hle, hleast⟩ := h.units
  obtain ⟨s, hs, hseconds, hnear⟩ := (now.since b.refilledAt).toBinary64_near
  obtain ⟨m, hm, heq, herror⟩ := refill_near ht hc hr hs (by positivity) hnear
  have hfilled : (b.refill now).tokens = finite false m hm := by
    rw [← heq, ← hseconds, ← hrate, ← hcapacity, ← htokens]
    rfl
  -- Half a unit is less than a share of the capacity.
  have hround : 1 ≤ roundoff * c := by
    have hgrid : 2 ^ 53 ≤ unitsPerOne := by decide +kernel
    have hlarge : (2 ^ 53 : ℚ) ≤ c := by exact_mod_cast hgrid.trans hleast
    unfold roundoff
    linarith
  rw [refillSlip, hfilled]
  refine abs_sub_le_of_units ?_
  rw [value_units, level_units hrate hcapacity htokens hnow, hcapacity, mul_assoc, value_units]
  linarith

/-- Taking a token rounds by no more than one part in `2^53` of the capacity. -/
theorem Measured.take_slip (h : b.Measured) (hle : (1 : Binary64).le b.tokens = true) :
    |(b.tokens - 1).value - (b.tokens.value - 1)| ≤ roundoff * b.capacity.value := by
  obtain ⟨r, hr, c, hc, t, ht, hrate, hcapacity, htokens, hbounded, hleast⟩ := h.units
  rw [htokens, one_eq, le_finite] at hle
  obtain ⟨hs, heq⟩ := nearest_of_lt (lt_overflow_of_le ht (Nat.sub_le t (1 * unitsPerOne)))
  have hround := nearestUnits_near_whole (t - 1 * unitsPerOne)
  have hbelow : ((t - 1 * unitsPerOne : ℕ) : ℚ) ≤ c := by
    exact_mod_cast (Nat.sub_le t (1 * unitsPerOne)).trans hbounded
  have hone : ((t - 1 * unitsPerOne : ℕ) : ℚ) = t - 1 * unitsPerOne := by
    rw [Nat.cast_sub hle, Nat.cast_mul, Nat.cast_one]
  have hu := roundoff_pos
  rw [htokens, hcapacity, one_eq, sub_finite hle, heq]
  refine abs_sub_le_of_units ?_
  rw [sub_mul _ 1, mul_assoc, value_units, value_units, value_units, ← hone]
  refine hround.le.trans ?_
  rw [add_zero]
  gcongr

/-- An operation moves the tokens by no more than one part in `2^50` of the capacity. -/
theorem Measured.slip_le (h : b.Measured) (hop : b.refilledAt.nanos ≤ op.time.nanos) :
    b.slip op ≤ b.capacity.value / 2 ^ 50 := by
  have hrefill := h.refillSlip_le hop
  have heighth : b.capacity.value / 2 ^ 50 =
      7 * roundoff * b.capacity.value + roundoff * b.capacity.value := by
    unfold roundoff
    ring
  have htake : |(b.apply op).tokens.value - ((b.refill op.time).tokens.value - b.taken op)| ≤
      roundoff * b.capacity.value := by
    rcases apply_cases h.sound.limited op with ⟨hadmits, hle, heq⟩ | ⟨hadmits, heq⟩
    · rw [heq, taken, hadmits, if_pos rfl]
      exact (h.refill op.time).take_slip hle
    · obtain ⟨r, hr, c, hc, t, ht, -, hcapacity, -⟩ := h.units
      rw [heq, taken, hadmits, if_neg Bool.false_ne_true, sub_zero, sub_self, abs_zero, hcapacity,
        value_finite]
      exact mul_nonneg roundoff_pos.le (div_nonneg c.cast_nonneg unitsPerOne_pos.le)
  unfold slip
  linarith

theorem refillSlip_le_slip (b : TokenBucket) (op : Op) : b.refillSlip op.time ≤ b.slip op :=
  le_add_of_nonneg_right (abs_nonneg _)

theorem slip_nonneg (b : TokenBucket) (op : Op) : 0 ≤ b.slip op :=
  add_nonneg (abs_nonneg _) (abs_nonneg _)

theorem slips_nonneg (b : TokenBucket) (ops : List Op) : 0 ≤ b.slips ops := by
  induction ops generalizing b with
  | nil => exact le_rfl
  | cons op ops ih => exact add_nonneg (slip_nonneg b op) (ih (b.apply op))

theorem slips_append (b : TokenBucket) (before after : List Op) :
    b.slips (before ++ after) = b.slips before + (b.run before).slips after := by
  induction before generalizing b with
  | nil => exact (zero_add _).symm
  | cons op before ih =>
    rw [List.cons_append, slips_cons, slips_cons, run_cons, ih, add_assoc]

/-- Operations in order move the tokens by no more than that part of the capacity each. -/
theorem Measured.slips_le (h : b.Measured) (hops : InOrder b.refilledAt ops) :
    b.slips ops ≤ ops.length * (b.capacity.value / 2 ^ 50) := by
  induction ops generalizing b with
  | nil =>
    rw [List.length_nil, Nat.cast_zero, zero_mul]
    exact le_rfl
  | cons op ops ih =>
    obtain ⟨hop, hrest⟩ := hops
    obtain ⟨hmeasured, -, hcapacity, htime⟩ := h.apply op
    rw [← htime] at hrest
    have hlater := ih hmeasured hrest
    have hhere := h.slip_le hop
    rw [hcapacity] at hlater
    rw [slips_cons, List.length_cons, Nat.cast_succ, add_mul, one_mul]
    linarith

/-! ### Full buckets -/

/-- A full bucket with a finite positive rate. -/
theorem measured_full {rate : Binary64} {burst : UInt32} {start : Instant}
    (hfinite : rate.isFinite = true) (hpos : (0 : Binary64).lt rate = true) :
    (full rate burst start).Measured := by
  have hlimited := isUnlimitedRate_of_pos hpos
  have hrate : rate.Nonneg := nonneg_rate hlimited
  refine ⟨sound_full hlimited, hfinite, ?_⟩
  change (capacityOf rate burst).isFinite = true
  unfold capacityOf
  split
  · rcases hrate.cases with rfl | ⟨m, hm, rfl⟩
    · cases hfinite
    · rw [one_eq]
      exact isFinite_max (isFinite_floor hm) rfl
  · rw [ofNat_eq (burst.toNat_lt.trans (by decide))]
    rfl

end TokenBucket

end RpcPolicy
