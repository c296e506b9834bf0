import RpcPolicy.Proofs.Backoff.Course
import RpcPolicy.Proofs.Number.Signed
/-! Delays that vary. Main statement: with any policy and any draw a step can always be taken, and
its delay lies between the least delay and the cap. -/

namespace RpcPolicy

/-! ### Operations that refuse what they cannot take -/

/-- A number drawn from a closed range; an empty range is refused, and one without a finite
width. -/
def Binary64.drawn? (low high part : Binary64) : Option Binary64 :=
  if low.le high && (high - low).isFinite then some part else none

/-- A length brought into a range; a range whose ends are crossed is refused. -/
def Duration.clamp? (d low high : Duration) : Option Duration :=
  if low.nanos ≤ high.nanos then some (d.clamp low high) else none

/-- A delay varied by a part of itself, if its last operation does not refuse what it gets. -/
def BackoffPolicy.vary? (p : BackoffPolicy) (delay : Duration) (part : Binary64) :
    Option Duration :=
  let seconds := delay.toBinary64 * (1 + part)
  if seconds.isNaN || seconds.le 0 then some p.floor
  else ((Duration.ofBinary64? seconds).getD p.cap).clamp? p.floor p.cap

/-- The delay of a step for which `part` is drawn, if no operation on the way refuses what it
gets. -/
def Cursor.delayWith? (c : Cursor) (part : Binary64) : Option Duration :=
  match c.policy.swing? with
  | none => c.current.clamp? c.policy.floor c.policy.cap
  | some width => (Binary64.drawn? (-width) width part).bind (c.policy.vary? c.current)

variable {p : BackoffPolicy} {width part : Binary64} {c : Cursor}

theorem clamp_bounds {d low high : Duration} (h : low.nanos ≤ high.nanos) :
    low.nanos ≤ (d.clamp low high).nanos ∧ (d.clamp low high).nanos ≤ high.nanos := by
  rw [Duration.clamp, nanos_max, nanos_min]
  omega

theorem clamp?_eq {d low high : Duration} (h : low.nanos ≤ high.nanos) :
    d.clamp? low high = some (d.clamp low high) :=
  if_pos h

namespace BackoffPolicy

/-- What may be drawn for a step: a number within the jitter, of which no more than one counts. -/
def Draws (p : BackoffPolicy) (part : Binary64) : Prop :=
  ∀ width, p.swing? = some width → part.Within width

theorem floor_le_cap (p : BackoffPolicy) : p.floor.nanos ≤ p.cap.nanos := by
  rw [p.nanos_floor]
  exact Nat.min_le_right _ _

open Binary64 in
/-- The swing of a policy is a number from zero to one, whatever the jitter. -/
theorem swing?_units (h : p.swing? = some width) :
    ∃ m hm, width = finite false m hm ∧ m ≤ unitsPerOne := by
  unfold swing? at h
  split at h
  · cases h
  · rename_i hjitter
    rw [Bool.not_eq_true, Bool.or_eq_false_iff] at hjitter
    obtain rfl : p.jitter.min 1 = width := Option.some.inj h
    have hj := nonneg_of_not_le_zero hjitter.1 hjitter.2
    have hle := hj.min_le_right nonneg_one
    rcases (hj.min nonneg_one).cases with hinf | ⟨m, hm, heq⟩
    · rw [hinf, one_eq] at hle
      cases hle
    · rw [heq, one_eq, le_finite, Nat.one_mul] at hle
      exact ⟨m, hm, heq, hle⟩

/-- Twice that still fits. -/
theorem swing?_doubled (h : p.swing? = some width) :
    ∃ m hm hmm, width = .finite false m hm ∧ m ≤ unitsPerOne ∧
      width - -width = .finite false (m + m) hmm := by
  obtain ⟨m, hm, rfl, hle⟩ := swing?_units h
  have hlimit : unitsPerOne + unitsPerOne < unitsOverflow := by decide +kernel
  have hdouble : Representable (m + m) := Binary64.representable_double hm (by omega)
  exact ⟨m, hm, hdouble, rfl, hle, Binary64.add_self hdouble⟩

/-- The range from minus the swing to the swing can be drawn from. -/
theorem drawn?_swing (h : p.swing? = some width) (part : Binary64) :
    Binary64.drawn? (-width) width part = some part := by
  obtain ⟨m, hm, hmm, rfl, -, hwidth⟩ := swing?_doubled h
  have hrange : (-Binary64.finite false m hm).le (.finite false m hm) = true :=
    (Binary64.within_iff.mpr (Nat.le_refl m)).1
  rw [Binary64.drawn?, hwidth, hrange]
  rfl

theorem swing_fst (source : RandomSource) (width : Binary64) :
    (source.swing width).1 =
      Binary64.ofRatio (source.next.1 >>> 12).toNat (2 ^ 52) * (width - -width) + -width := rfl

/-- What a source draws lies in the range: a fraction below one of the width, rounded, less half
of the width, rounded. -/
theorem swing_within (h : p.swing? = some width) (source : RandomSource) :
    (source.swing width).1.Within width := by
  obtain ⟨m, hm, hmm, rfl, -, hwidth⟩ := swing?_doubled h
  have hbits : ((source.next.1 >>> 12).toNat) ≤ 2 ^ 52 := by
    have hlt := source.next.1.toNat_lt
    rw [UInt64.toNat_shiftRight]
    change source.next.1.toNat >>> 12 ≤ 2 ^ 52
    rw [Nat.shiftRight_eq_div_pow]
    omega
  have hone : Representable unitsPerOne := by
    have hone := Binary64.representable_whole (n := 1) (by decide)
    rwa [Nat.one_mul] at hone
  obtain ⟨f, hf, hfraction, hfle⟩ := Binary64.nearest_within hone false (Nat.two_pow_pos 52)
    (Nat.le_trans (Nat.mul_le_mul_right unitsPerOne hbits) (Nat.le_of_eq (Nat.mul_comm ..)))
  have hpos : 0 < unitsPerOne := by decide +kernel
  obtain ⟨t, ht, hproduct, htle⟩ := Binary64.nearest_within hmm false hpos
    (Nat.le_trans (Nat.mul_le_mul_right (m + m) hfle) (Nat.le_of_eq (Nat.mul_comm ..)))
  have hpart : (source.swing (.finite false m hm)).1 =
      .finite false t ht + -.finite false m hm := by
    rw [swing_fst, hwidth, Binary64.ofRatio, hfraction, Binary64.mul_finite, hproduct]
  rw [hpart]
  exact Binary64.sub_within htle

/-- A varied delay is kept between the least delay and the cap. -/
theorem vary_bounds (p : BackoffPolicy) (delay : Duration) (part : Binary64) :
    p.floor.nanos ≤ (p.vary delay part).nanos ∧ (p.vary delay part).nanos ≤ p.cap.nanos := by
  unfold vary
  generalize delay.toBinary64 * (1 + part) = seconds
  cases hlow : seconds.isNaN || seconds.le 0 with
  | true =>
    simp only [hlow, if_true]
    exact ⟨Nat.le_refl _, p.floor_le_cap⟩
  | false =>
    simp only [hlow, Bool.false_eq_true, if_false]
    exact clamp_bounds p.floor_le_cap

theorem vary?_eq (p : BackoffPolicy) (delay : Duration) (part : Binary64) :
    p.vary? delay part = some (p.vary delay part) := by
  unfold vary? vary
  generalize delay.toBinary64 * (1 + part) = seconds
  cases hlow : seconds.isNaN || seconds.le 0 with
  | true => simp only [hlow, if_true]
  | false =>
    simp only [hlow, Bool.false_eq_true, if_false]
    exact clamp?_eq p.floor_le_cap

/-- A valid policy whose delays are both set has its own bounds. -/
theorem bounds_of_validate (h : p.validate = .ok ()) (hmin : 0 < p.minDelay.nanos)
    (hmax : 0 < p.maxDelay.nanos) :
    p.floor.nanos = p.minDelay.nanos ∧ p.cap.nanos = p.maxDelay.nanos := by
  have hcap : p.cap.nanos = p.maxDelay.nanos := by
    rw [p.nanos_cap, if_neg (by omega)]
  have hle : p.minDelay.nanos ≤ p.maxDelay.nanos := by
    unfold validate at h
    split at h
    · cases h
    · split at h
      · cases h
      · rename_i hordered
        simp only [Duration.isZero, Bool.and_eq_true, Bool.not_eq_true', decide_eq_false_iff_not,
          decide_eq_true_eq] at hordered
        omega
  rw [p.nanos_floor, hcap]
  exact ⟨Nat.min_eq_left hle, rfl⟩

end BackoffPolicy

namespace Cursor

theorem policy_run (c : Cursor) (ops : List Op) : (c.run ops).policy = c.policy := by
  induction ops generalizing c with
  | nil => rfl
  | cons op ops ih =>
    have hop : (c.apply op).policy = c.policy := by
      cases op <;> rfl
    exact (ih (c.apply op)).trans hop

theorem delay_of_none (h : c.policy.swing? = none) :
    c.step.1.delay = c.current.clamp c.policy.floor c.policy.cap := by
  change c.jittered.1 = _
  simp only [jittered, h]

theorem delay_of_some (h : c.policy.swing? = some width) :
    c.step.1.delay = c.policy.vary c.current (c.source.swing width).1 := by
  change c.jittered.1 = _
  simp only [jittered, h]

/-- Without jitter nothing is drawn. -/
theorem delayWith?_of_none (h : c.policy.swing? = none) (part : Binary64) :
    c.delayWith? part = some (c.current.clamp c.policy.floor c.policy.cap) := by
  unfold delayWith?
  rw [h]
  exact clamp?_eq c.policy.floor_le_cap

/-- With jitter a step refuses nothing, whatever is drawn. -/
theorem delayWith?_of_some (h : c.policy.swing? = some width) (part : Binary64) :
    c.delayWith? part = some (c.policy.vary c.current part) := by
  unfold delayWith?
  rw [h]
  dsimp only
  rw [BackoffPolicy.drawn?_swing h, Option.bind_some, BackoffPolicy.vary?_eq]

theorem delayWith?_bounds (c : Cursor) (part : Binary64) :
    ∃ d, c.delayWith? part = some d ∧ c.policy.floor.nanos ≤ d.nanos ∧
      d.nanos ≤ c.policy.cap.nanos := by
  cases h : c.policy.swing? with
  | none => exact ⟨_, delayWith?_of_none h part, clamp_bounds c.policy.floor_le_cap⟩
  | some width => exact ⟨_, delayWith?_of_some h part, c.policy.vary_bounds c.current part⟩

/-- The step of a cursor is one for which its own source draws. -/
theorem exists_delayWith?_step (c : Cursor) :
    ∃ part, c.policy.Draws part ∧ c.delayWith? part = some c.step.1.delay := by
  cases h : c.policy.swing? with
  | none =>
    refine ⟨0, fun width hw => ?_, ?_⟩
    · rw [h] at hw
      cases hw
    · rw [delay_of_none h, delayWith?_of_none h]
  | some width =>
    refine ⟨(c.source.swing width).1, fun other hw => ?_, ?_⟩
    · obtain rfl : width = other := Option.some.inj (h.symm.trans hw)
      exact BackoffPolicy.swing_within h c.source
    · rw [delay_of_some h, delayWith?_of_some h]

/-- Whatever is drawn, the step of a reachable cursor is defined and lies between the least delay,
or the cap if that is less, and the cap. -/
theorem run_delay_bounds (c : Cursor) (ops : List Op) :
    let p := c.policy
    let b := c.run ops
    (∀ part, ∃ d, b.delayWith? part = some d ∧
      min p.minDelay.nanos p.cap.nanos ≤ d.nanos ∧ d.nanos ≤ p.cap.nanos ∧
      (p.validate = .ok () → 0 < p.minDelay.nanos → 0 < p.maxDelay.nanos →
        p.minDelay.nanos ≤ d.nanos ∧ d.nanos ≤ p.maxDelay.nanos)) ∧
    ∃ part, p.Draws part ∧ b.delayWith? part = some b.step.1.delay := by
  intro p b
  have hpolicy : b.policy = p := c.policy_run ops
  refine ⟨?any, ?own⟩
  case any =>
    intro part
    obtain ⟨d, hd, hfloor, hcap⟩ := b.delayWith?_bounds part
    rw [hpolicy] at hfloor hcap
    refine ⟨d, hd, ?_, hcap, ?_⟩
    · rw [← p.nanos_floor]
      exact hfloor
    · intro hvalid hmin hmax
      obtain ⟨hfloor', hcap'⟩ := p.bounds_of_validate hvalid hmin hmax
      omega
  case own =>
    rw [← hpolicy]
    exact b.exists_delayWith?_step

/-- With an infinite jitter a delay may be doubled at most, and here the cap cuts it; with a jitter
of one it may come to nothing, and the least delay stands in for it. -/
theorem run_delay_bounds_extremes :
    let p : BackoffPolicy := ⟨.ofMillis 100, .ofMillis 500, 3, 1⟩
    let wild := { p with jitter := .infinity }
    let c := (ofSeed p 7).run [.step, .reset, .next, .step]
    let d := (ofSeed wild 7).run [.step, .reset, .next, .step]
    (∃ e, c.delayWith? (-1) = some e ∧ 100000000 ≤ e.nanos ∧ e.nanos ≤ 500000000) ∧
      ∃ e, d.delayWith? 1 = some e ∧ e.nanos ≤ 500000000 := by
  intro p wild c d
  have hvalid : p.validate = .ok () := by
    rw [BackoffPolicy.validate, if_neg (by decide +kernel), if_neg (by decide +kernel)]
  obtain ⟨e, he, -, -, hvalidated⟩ :=
    (run_delay_bounds (ofSeed p 7) [.step, .reset, .next, .step]).1 (-1)
  obtain ⟨e', he', -, hcap, -⟩ :=
    (run_delay_bounds (ofSeed wild 7) [.step, .reset, .next, .step]).1 1
  exact ⟨⟨e, he, hvalidated hvalid (by decide) (by decide)⟩, e', he', hcap⟩

end Cursor

end RpcPolicy
