import RpcPolicy.Proofs.TokenBucket.Slips
/-! Schedules from which looks and rejected attempts are left out. Main statement: the first attempt
that is given another outcome finds tokens closer to one than rounding has moved them. -/

namespace RpcPolicy.TokenBucket

open Binary64

/-- What an attempt is given; a look is given nothing. -/
def outcome (b : TokenBucket) : Op → List Bool
  | .acquire now => [(b.tryAcquire now).1]
  | .available _ => []

/-- What the attempts of a schedule are given. -/
def outcomes (b : TokenBucket) : List Op → List Bool
  | [] => []
  | op :: ops => b.outcome op ++ (b.apply op).outcomes ops

/-- The operations of a schedule in which each one is marked as kept or left out. -/
def all (marked : List (Op × Bool)) : List Op := marked.map Prod.fst

/-- The operations that are kept. -/
def kept (marked : List (Op × Bool)) : List Op := (marked.filter Prod.snd).map Prod.fst

/-- What the kept attempts are given when nothing is left out. -/
def keptOutcomes (b : TokenBucket) : List (Op × Bool) → List Bool
  | [] => []
  | (op, keep) :: marked =>
    (if keep then b.outcome op else []) ++ (b.apply op).keptOutcomes marked

/-- Whether only looks and rejected attempts are left out. -/
def Deletable (b : TokenBucket) : List (Op × Bool) → Prop
  | [] => True
  | (op, keep) :: marked => (keep = true ∨ b.admits op = false) ∧ (b.apply op).Deletable marked

instance decidableDeletable :
    (b : TokenBucket) → (marked : List (Op × Bool)) → Decidable (b.Deletable marked)
  | _, [] => .isTrue trivial
  | b, (op, keep) :: marked =>
    have := decidableDeletable (b.apply op) marked
    inferInstanceAs (Decidable ((keep = true ∨ b.admits op = false) ∧
      (b.apply op).Deletable marked))

/-- The bucket in exact arithmetic, holding other tokens. -/
def holding (b : TokenBucket) (tokens : ℚ) : Reading ℚ := { b.exact with tokens := tokens }

/-- Two buckets that follow one exact level, each within the distance by which rounding has moved
its tokens. The second may have been refilled earlier. -/
structure Shadowed (whole thin : TokenBucket) (tokens wholeError thinError : ℚ) : Prop where
  measured : whole.Measured
  thinMeasured : thin.Measured
  rate : whole.rate = thin.rate
  capacity : whole.capacity = thin.capacity
  later : thin.refilledAt.nanos ≤ whole.refilledAt.nanos
  wholeNear :
    |whole.tokens.value - (thin.holding tokens).level whole.refilledAt.exact| ≤ wholeError
  thinNear : |thin.tokens.value - tokens| ≤ thinError

namespace Reading

/-- Tokens that differ go on to differ by no more. -/
theorem abs_level_sub_le (b : Reading ℚ) (tokens time : ℚ) :
    |b.level time - { b with tokens := tokens }.level time| ≤ |b.tokens - tokens| := by
  have hmin := abs_min_sub_min_le_max (b.tokens + b.rate * (time - b.refilledAt.exact)) b.capacity
    (tokens + b.rate * (time - b.refilledAt.exact)) b.capacity
  rw [sub_self, abs_zero, max_eq_left (abs_nonneg _), add_sub_add_right_eq_sub] at hmin
  exact hmin

/-- A level that is reached on the way does not change what is reached later. -/
theorem level_level {b : Reading ℚ} {now : Instant} {time : ℚ} (hrate : 0 ≤ b.rate)
    (hnow : now.exact ≤ time) :
    { b with tokens := b.level now.exact, refilledAt := now }.level time = b.level time := by
  have hcome : 0 ≤ b.rate * (time - now.exact) := mul_nonneg hrate (sub_nonneg.mpr hnow)
  have hsplit : b.rate * (now.exact - b.refilledAt.exact) + b.rate * (time - now.exact) =
      b.rate * (time - b.refilledAt.exact) := by ring
  change min (min (b.tokens + b.rate * (now.exact - b.refilledAt.exact)) b.capacity +
    b.rate * (time - now.exact)) b.capacity = min _ b.capacity
  rw [← min_add_add_right, min_assoc, min_eq_right (le_add_of_nonneg_right hcome), add_assoc,
    hsplit]

end Reading

variable {whole thin : TokenBucket} {tokens wholeError thinError : ℚ} {op : Op} {ops : List Op}
  {now start : Instant} {marked before after : List (Op × Bool)}

theorem all_cons (op : Op) (keep : Bool) (marked : List (Op × Bool)) :
    all ((op, keep) :: marked) = op :: all marked := rfl

theorem all_append (before after : List (Op × Bool)) :
    all (before ++ after) = all before ++ all after :=
  List.map_append

theorem kept_true (op : Op) (marked : List (Op × Bool)) :
    kept ((op, true) :: marked) = op :: kept marked := rfl

theorem kept_false (op : Op) (marked : List (Op × Bool)) :
    kept ((op, false) :: marked) = kept marked := rfl

theorem outcomes_cons (b : TokenBucket) (op : Op) (ops : List Op) :
    b.outcomes (op :: ops) = b.outcome op ++ (b.apply op).outcomes ops := rfl

theorem keptOutcomes_true (b : TokenBucket) (op : Op) (marked : List (Op × Bool)) :
    b.keptOutcomes ((op, true) :: marked) = b.outcome op ++ (b.apply op).keptOutcomes marked := rfl

theorem keptOutcomes_false (b : TokenBucket) (op : Op) (marked : List (Op × Bool)) :
    b.keptOutcomes ((op, false) :: marked) = (b.apply op).keptOutcomes marked := rfl

theorem length_outcome (b b' : TokenBucket) (op : Op) :
    (b.outcome op).length = (b'.outcome op).length := by
  cases op with
  | acquire now => exact List.length_singleton.trans List.length_singleton.symm
  | available now => rfl

theorem Measured.rate_nonneg {b : TokenBucket} (h : b.Measured) : 0 ≤ b.rate.value := by
  obtain ⟨r, hr, c, hc, t, ht, hrate, -⟩ := h.units
  rw [hrate, value_finite]
  exact div_nonneg r.cast_nonneg unitsPerOne_pos.le

namespace Shadowed

/-! ### What an operation finds -/

/-- What the thinned schedule finds, after rounding. -/
theorem thin_found (h : Shadowed whole thin tokens wholeError thinError) (now : Instant) :
    |(thin.refill now).tokens.value - (thin.holding tokens).level now.exact| ≤
      thinError + thin.refillSlip now := by
  have htriangle := abs_sub_le (thin.refill now).tokens.value (thin.exact.level now.exact)
    ((thin.holding tokens).level now.exact)
  have hlevel := thin.exact.abs_level_sub_le tokens now.exact
  have hnear := h.thinNear
  change |thin.exact.level now.exact - (thin.holding tokens).level now.exact| ≤
    |thin.tokens.value - tokens| at hlevel
  unfold refillSlip
  linarith

/-- What the full schedule finds, after rounding. -/
theorem whole_found (h : Shadowed whole thin tokens wholeError thinError)
    (hnow : whole.refilledAt.nanos ≤ now.nanos) :
    |(whole.refill now).tokens.value - (thin.holding tokens).level now.exact| ≤
      wholeError + whole.refillSlip now := by
  have htriangle := abs_sub_le (whole.refill now).tokens.value (whole.exact.level now.exact)
    ((thin.holding tokens).level now.exact)
  have hlevel := whole.exact.abs_level_sub_le
    ((thin.holding tokens).level whole.refilledAt.exact) now.exact
  have hreached : { whole.exact with tokens := (thin.holding tokens).level whole.refilledAt.exact
      }.level now.exact = (thin.holding tokens).level now.exact := by
    rw [← Reading.level_level (b := thin.holding tokens) h.thinMeasured.rate_nonneg
      (Instant.exact_le_exact.mpr hnow)]
    unfold exact holding
    rw [h.rate, h.capacity]
    rfl
  have hnear := h.wholeNear
  rw [hreached] at hlevel
  change |whole.exact.level now.exact - (thin.holding tokens).level now.exact| ≤
    |whole.tokens.value - (thin.holding tokens).level whole.refilledAt.exact| at hlevel
  unfold refillSlip
  linarith

/-- What the full schedule leaves, after rounding. -/
theorem whole_left (h : Shadowed whole thin tokens wholeError thinError)
    (hop : whole.refilledAt.nanos ≤ op.time.nanos) :
    |(whole.apply op).tokens.value -
      ((thin.holding tokens).level op.time.exact - whole.taken op)| ≤ wholeError + whole.slip op := by
  have hfound := h.whole_found hop
  have htriangle := abs_sub_le (whole.apply op).tokens.value
    ((whole.refill op.time).tokens.value - whole.taken op)
    ((thin.holding tokens).level op.time.exact - whole.taken op)
  rw [sub_sub_sub_cancel_right] at htriangle
  unfold slip
  linarith

/-- What the thinned schedule leaves, after rounding. -/
theorem thin_left (h : Shadowed whole thin tokens wholeError thinError) (op : Op) :
    |(thin.apply op).tokens.value -
      ((thin.holding tokens).level op.time.exact - thin.taken op)| ≤ thinError + thin.slip op := by
  have hfound := h.thin_found op.time
  have htriangle := abs_sub_le (thin.apply op).tokens.value
    ((thin.refill op.time).tokens.value - thin.taken op)
    ((thin.holding tokens).level op.time.exact - thin.taken op)
  rw [sub_sub_sub_cancel_right] at htriangle
  unfold slip
  linarith

/-! ### One operation -/

/-- A look or a rejected attempt may be left out. -/
theorem leave_out (h : Shadowed whole thin tokens wholeError thinError)
    (hop : whole.refilledAt.nanos ≤ op.time.nanos) (hadmits : whole.admits op = false) :
    Shadowed (whole.apply op) thin tokens (wholeError + whole.slip op) thinError := by
  obtain ⟨hmeasured, hrate, hcapacity, htime⟩ := h.measured.apply op
  have hleft := h.whole_left hop
  rw [taken, hadmits, if_neg Bool.false_ne_true, sub_zero] at hleft
  refine ⟨hmeasured, h.thinMeasured, hrate.trans h.rate, hcapacity.trans h.capacity, ?_, ?_,
    h.thinNear⟩
  · rw [htime]
    exact h.later.trans hop
  · rwa [htime]

/-- An operation that both schedules take alike. -/
theorem keep (h : Shadowed whole thin tokens wholeError thinError)
    (hop : whole.refilledAt.nanos ≤ op.time.nanos) (hadmits : whole.admits op = thin.admits op) :
    Shadowed (whole.apply op) (thin.apply op)
      ((thin.holding tokens).level op.time.exact - thin.taken op)
      (wholeError + whole.slip op) (thinError + thin.slip op) := by
  obtain ⟨hmeasured, hrate, hcapacity, htime⟩ := h.measured.apply op
  obtain ⟨hmeasured', hrate', hcapacity', htime'⟩ := h.thinMeasured.apply op
  have hleft := h.whole_left hop
  have htaken : whole.taken op = thin.taken op := by
    unfold taken
    rw [hadmits]
  have hpositive : 0 ≤ thin.taken op := by
    unfold taken
    split
    · exact zero_le_one
    · exact le_rfl
  refine ⟨hmeasured, hmeasured', ?_, ?_, ?_, ?_, h.thin_left op⟩
  · rw [hrate, hrate', h.rate]
  · rw [hcapacity, hcapacity', h.capacity]
  · rw [htime, htime']
  · have hlevel := (thin.holding tokens).level_le_capacity op.time.exact
    have hstays : ((thin.apply op).holding
        ((thin.holding tokens).level op.time.exact - thin.taken op)).level op.time.exact =
        (thin.holding tokens).level op.time.exact - thin.taken op := by
      change min (_ + _ * (op.time.exact - (thin.apply op).refilledAt.exact))
        (thin.apply op).capacity.value = _
      rw [htime', sub_self, mul_zero, add_zero, hcapacity']
      exact min_eq_left ((sub_le_self _ hpositive).trans hlevel)
    rw [htime, hstays, ← htaken]
    exact hleft

/-- An attempt is given the same in both schedules, unless the tokens that it finds are closer to
one than rounding has moved them. -/
theorem decision (h : Shadowed whole thin tokens wholeError thinError)
    (hnow : whole.refilledAt.nanos ≤ now.nanos) :
    (whole.tryAcquire now).1 = (thin.tryAcquire now).1 ∨
      let error := wholeError + whole.refillSlip now + (thinError + thin.refillSlip now)
      0 < error ∧ |(whole.refill now).tokens.value - 1| ≤ error := by
  have hwhole := h.whole_found hnow
  have hthin := h.thin_found now
  have hmeasured := h.measured.refill now
  have hthinMeasured := h.thinMeasured.refill now
  have hdistance : |(whole.refill now).tokens.value - (thin.refill now).tokens.value| ≤
      wholeError + whole.refillSlip now + (thinError + thin.refillSlip now) := by
    have htriangle := abs_sub_le (whole.refill now).tokens.value
      ((thin.holding tokens).level now.exact) (thin.refill now).tokens.value
    rw [abs_sub_comm ((thin.holding tokens).level now.exact)] at htriangle
    linarith
  rw [abs_le] at hdistance
  rw [tryAcquire_fst h.measured.sound.limited, tryAcquire_fst h.thinMeasured.sound.limited]
  cases hw : (1 : Binary64).le (whole.refill now).tokens with
  | true =>
    have hge := hmeasured.one_le.mp hw
    cases ht : (1 : Binary64).le (thin.refill now).tokens with
    | true => exact Or.inl rfl
    | false =>
      have hlt := hthinMeasured.lt_one.mp ht
      refine Or.inr ⟨by linarith, ?_⟩
      rw [abs_of_nonneg (by linarith)]
      linarith
  | false =>
    have hlt := hmeasured.lt_one.mp hw
    cases ht : (1 : Binary64).le (thin.refill now).tokens with
    | true =>
      have hge := hthinMeasured.one_le.mp ht
      refine Or.inr ⟨by linarith, ?_⟩
      rw [abs_of_neg (by linarith)]
      linarith
    | false => exact Or.inl rfl

/-! ### A schedule -/

theorem admits_of_outcome {b b' : TokenBucket} (h : b.outcome op = b'.outcome op) :
    b.admits op = b'.admits op := by
  cases op with
  | acquire now => exact List.head_eq_of_cons_eq h
  | available now => rfl

/-- While the kept attempts are given the same, both schedules follow one exact level. -/
theorem run (h : Shadowed whole thin tokens wholeError thinError)
    (hops : InOrder whole.refilledAt (all marked)) (hdel : whole.Deletable marked)
    (hsame : thin.outcomes (kept marked) = whole.keptOutcomes marked) :
    ∃ tokens', Shadowed (whole.run (all marked)) (thin.run (kept marked)) tokens'
      (wholeError + whole.slips (all marked)) (thinError + thin.slips (kept marked)) := by
  induction marked generalizing whole thin tokens wholeError thinError with
  | nil =>
    refine ⟨tokens, ?_⟩
    change Shadowed whole thin tokens (wholeError + 0) (thinError + 0)
    rwa [add_zero, add_zero]
  | cons mark marked ih =>
    obtain ⟨op, keep⟩ := mark
    obtain ⟨hop, hrest⟩ := hops
    obtain ⟨hkeep, hdel'⟩ := hdel
    obtain ⟨-, -, -, htime⟩ := h.measured.apply op
    rw [← htime] at hrest
    rw [all_cons, run_cons, slips_cons, ← add_assoc]
    cases keep with
    | false =>
      have hadmits : whole.admits op = false := hkeep.resolve_left Bool.false_ne_true
      rw [kept_false, keptOutcomes_false] at hsame
      rw [kept_false]
      exact ih (h.leave_out hop hadmits) hrest hdel' hsame
    | true =>
      rw [kept_true, outcomes_cons, keptOutcomes_true] at hsame
      obtain ⟨hhere, hlater⟩ := List.append_inj hsame (length_outcome thin whole op)
      have hadmits := admits_of_outcome hhere
      rw [kept_true, run_cons, slips_cons, ← add_assoc]
      exact ih (h.keep hop hadmits.symm) hrest hdel' hlater

/-- Where nothing is rounded, every kept attempt is given the same. -/
theorem outcomes_eq (h : Shadowed whole thin tokens wholeError thinError)
    (hops : InOrder whole.refilledAt (all marked)) (hdel : whole.Deletable marked)
    (hexact : wholeError + whole.slips (all marked) + (thinError + thin.slips (kept marked)) = 0) :
    thin.outcomes (kept marked) = whole.keptOutcomes marked := by
  induction marked generalizing whole thin tokens wholeError thinError with
  | nil => rfl
  | cons mark marked ih =>
    obtain ⟨op, keep⟩ := mark
    obtain ⟨hop, hrest⟩ := hops
    obtain ⟨hkeep, hdel'⟩ := hdel
    obtain ⟨-, -, -, htime⟩ := h.measured.apply op
    rw [← htime] at hrest
    rw [all_cons, slips_cons, ← add_assoc wholeError] at hexact
    cases keep with
    | false =>
      have hadmits : whole.admits op = false := hkeep.resolve_left Bool.false_ne_true
      rw [kept_false] at hexact
      rw [kept_false, keptOutcomes_false]
      exact ih (h.leave_out hop hadmits) hrest hdel' hexact
    | true =>
      rw [kept_true, slips_cons, ← add_assoc thinError] at hexact
      have hoperation : thin.outcome op = whole.outcome op := by
        cases op with
        | available now => rfl
        | acquire now =>
          rcases h.decision hop with heq | ⟨hpos, -⟩
          · exact congrArg (fun x => [x]) heq.symm
          · exfalso
            have hwhole := refillSlip_le_slip whole (.acquire now)
            have hthin := refillSlip_le_slip thin (.acquire now)
            have hwhole' := slips_nonneg (whole.apply (.acquire now)) (all marked)
            have hthin' := slips_nonneg (thin.apply (.acquire now)) (kept marked)
            change 0 < wholeError + whole.refillSlip (Op.acquire now).time +
              (thinError + thin.refillSlip (Op.acquire now).time) at hpos
            linarith
      have hlater := ih (h.keep hop (admits_of_outcome hoperation).symm) hrest hdel' hexact
      rw [kept_true, outcomes_cons, keptOutcomes_true, hoperation, hlater]

end Shadowed

theorem shadowed_full {b : TokenBucket} (h : b.Measured) (hfull : b.tokens = b.capacity) :
    Shadowed b b b.capacity.value 0 0 := by
  refine ⟨h, h, rfl, rfl, le_rfl, ?_, ?_⟩
  · have hlevel : (b.holding b.capacity.value).level b.refilledAt.exact = b.capacity.value := by
      change min (b.capacity.value + _ * (b.refilledAt.exact - b.refilledAt.exact))
        b.capacity.value = _
      rw [sub_self, mul_zero, add_zero, min_self]
    rw [hlevel, hfull, sub_self, abs_zero]
  · rw [hfull, sub_self, abs_zero]

theorem Deletable.of_append {b : TokenBucket} (h : b.Deletable (before ++ after)) :
    b.Deletable before := by
  induction before generalizing b with
  | nil => trivial
  | cons mark before ih => exact ⟨h.1, ih h.2⟩

/-- Looks and rejected attempts change what later attempts are given only where rounding, at most
one part in `2^50` of the capacity for each operation, has come to matter. -/
theorem deletions_change_only_roundings (rate : Binary64) (burst : UInt32) (start : Instant)
    (marked : List (Op × Bool)) (hfinite : rate.isFinite = true)
    (hpos : (0 : Binary64).lt rate = true) (hops : InOrder start (all marked))
    (hdel : (full rate burst start).Deletable marked) :
    let b := full rate burst start
    (∀ before now after, marked = before ++ (.acquire now, true) :: after →
      b.outcomes (kept before) = b.keptOutcomes before →
      ((b.run (kept before)).tryAcquire now).1 = ((b.run (all before)).tryAcquire now).1 ∨
      let moved := b.slips (all before ++ [.available now]) +
        b.slips (kept before ++ [.available now])
      0 < moved ∧ |((b.run (all before)).available now).1.value - 1| ≤ moved) ∧
    (∀ ops, InOrder start ops → b.slips ops ≤ ops.length * (b.capacity.value / 2 ^ 50)) ∧
    (b.slips (all marked) = 0 → b.slips (kept marked) = 0 →
      b.outcomes (kept marked) = b.keptOutcomes marked) := by
  intro b
  have hmeasured : b.Measured := measured_full hfinite hpos
  have hshadowed : Shadowed b b b.capacity.value 0 0 := shadowed_full hmeasured rfl
  refine ⟨?first, ?bound, ?exact⟩
  case first =>
    rintro before now after rfl hsame
    rw [all_append, all_cons] at hops
    obtain ⟨tokens, hrun⟩ := hshadowed.run hops.of_append hdel.of_append hsame
    obtain ⟨hwhole, hnow⟩ := hmeasured.run hops
    have hslip := refillSlip_le_slip (b.run (all before)) (.available now)
    have hslip' := refillSlip_le_slip (b.run (kept before)) (.available now)
    change (b.run (all before)).refillSlip now ≤ _ at hslip
    change (b.run (kept before)).refillSlip now ≤ _ at hslip'
    have hlast : ∀ c : TokenBucket, c.slips [.available now] = c.slip (.available now) :=
      fun c => add_zero _
    rw [available_of_limited hwhole.sound.limited, slips_append, slips_append, hlast, hlast]
    rcases hrun.decision hnow.1 with heq | ⟨hpos, hnear⟩
    · exact Or.inl heq.symm
    · have hmore : 0 + b.slips (all before) + (b.run (all before)).refillSlip now +
          (0 + b.slips (kept before) + (b.run (kept before)).refillSlip now) ≤
          b.slips (all before) + (b.run (all before)).slip (.available now) +
            (b.slips (kept before) + (b.run (kept before)).slip (.available now)) := by
        linarith
      exact Or.inr ⟨lt_of_lt_of_le hpos hmore, hnear.trans hmore⟩
  case bound =>
    intro ops hops
    exact hmeasured.slips_le hops
  case exact =>
    intro hwhole hthin
    refine hshadowed.outcomes_eq hops hdel ?_
    rw [hwhole, hthin]
    norm_num

/-- An attempt, and a look after each of nine seconds, all of them left out. -/
def nineLooks : List (Op × Bool) :=
  (.acquire .start, true) ::
    (List.range 9).map fun n => (.available (Instant.start.after (.ofSeconds (n + 1))), false)

/-- One token in ten seconds: nine looks keep back the attempt after ten seconds, as ten times the
rounded tenth adds up to less than one. -/
theorem looks_not_free :
    ¬ ∀ (rate : Binary64) (burst : UInt32) (start : Instant) (marked : List (Op × Bool)),
      rate.isFinite = true → (0 : Binary64).lt rate = true → InOrder start (all marked) →
      (full rate burst start).Deletable marked →
      (full rate burst start).outcomes (kept marked) =
        (full rate burst start).keptOutcomes marked := by
  intro h
  let last : Instant := Instant.start.after (.ofSeconds 10)
  have hsame := h (.ofRatio 1 10) 1 .start (nineLooks ++ [(.acquire last, true)])
    (by decide +kernel) (by decide +kernel) (by decide +kernel) (by decide +kernel)
  have hother : (full (.ofRatio 1 10) 1 .start).outcomes
      (kept (nineLooks ++ [(.acquire last, true)])) ≠
      (full (.ofRatio 1 10) 1 .start).keptOutcomes
        (nineLooks ++ [(.acquire last, true)]) := by
    decide +kernel
  exact hother hsame

/-- After those nine looks the tokens are as close to one as rounding has moved them. -/
theorem deletions_change_only_roundings_nineLooks :
    let last : Instant := Instant.start.after (.ofSeconds 10)
    let b := full (.ofRatio 1 10) 1 .start
    let moved := b.slips (all nineLooks ++ [.available last]) +
      b.slips (kept nineLooks ++ [.available last])
    b.Deletable (nineLooks ++ [(.acquire last, true)]) ∧
      ((b.run (kept nineLooks)).tryAcquire last).1 = true ∧
      ((b.run (all nineLooks)).tryAcquire last).1 = false ∧
      0 < moved ∧ |((b.run (all nineLooks)).available last).1.value - 1| ≤ moved := by
  intro last b moved
  have hdel : b.Deletable (nineLooks ++ [(.acquire last, true)]) := by decide +kernel
  have hkept : ((b.run (kept nineLooks)).tryAcquire last).1 = true := by decide +kernel
  have hall : ((b.run (all nineLooks)).tryAcquire last).1 = false := by decide +kernel
  have h := deletions_change_only_roundings (.ofRatio 1 10) 1 .start
    (nineLooks ++ [(.acquire last, true)]) (by decide +kernel) (by decide +kernel)
    (by decide +kernel) hdel
  refine ⟨hdel, hkept, hall, ?_⟩
  rcases h.1 nineLooks last [] rfl (by decide +kernel) with heq | hmoved
  · rw [hkept, hall] at heq
    cases heq
  · exact hmoved

end RpcPolicy.TokenBucket
