import RpcPolicy.Proofs.Call.Looks
import RpcPolicy.Rehearsal.Schedule
/-! Work alone on a clock that jumps from one timer to the next. Main statement: a schedule takes
work through its waits one by one, and a bound of its own that expires with it changes only what it
then ends in. -/

namespace RpcPolicy

variable {α : Type} {token : Token} {limit t : Instant} {late late' a : α} {n : Nat}
  {p : Process α} {x : Option α} {v w : World}

namespace World

/-- The clock is set to an instant. -/
def atInstant (w : World) (t : Instant) : World := { w with clock := t }

end World

namespace Process

/-- Work that nobody cancels waits a number of times, each time until its earliest timer, and ends
with a result before a limit; or it comes to the limit, where it ends as `late` at once. -/
inductive Ticks (token : Token) (limit : Instant) (late : α) :
    Nat → Process α → World → Option α → World → Prop
  | done (a : α) (w : World) : Ticks token limit late 0 (.done a) w (some a) w
  | waited {n : Nat} {on : Wait} {resume : World → Process α × World} {w v : World} {t : Instant}
      {x : Option α} (asleep : on.isOver w = false) (calm : w.isCanceled token = false)
      (timer : Schedule.earliest? on.timers = some t) (early : t.nanos < limit.nanos)
      (rest : Ticks token limit late n (resume (w.atInstant t)).1 (resume (w.atInstant t)).2 x v) :
      Ticks token limit late (n + 1) (.waiting on resume) w x v
  | expired {on : Wait} {resume : World → Process α × World} {w : World}
      (asleep : on.isOver w = false) (calm : w.isCanceled token = false)
      (timer : Schedule.earliest? on.timers = some limit)
      (ends : resume (w.atInstant limit) = (.done late, w.atInstant limit)) :
      Ticks token limit late 1 (.waiting on resume) w none (w.atInstant limit)

end Process

namespace Schedule

/-! ### Timers -/

theorem mem_of_earliest? {ts : List Instant} (h : earliest? ts = some t) : t ∈ ts := by
  induction ts generalizing t with
  | nil => cases h
  | cons u ts ih =>
    unfold earliest? at h
    cases hrest : earliest? ts with
    | none =>
      rw [hrest] at h
      cases h
      exact List.mem_cons_self
    | some s =>
      rw [hrest] at h
      cases h
      split
      · exact List.mem_cons_of_mem u (ih hrest)
      · exact List.mem_cons_self

/-- A timer that goes off no earlier does not matter. -/
theorem earliest?_cons {ts : List Instant} (h : earliest? ts = some t)
    (ht : t.nanos < limit.nanos ∨ t = limit) : earliest? (limit :: ts) = some t := by
  unfold earliest?
  rw [h]
  dsimp only
  rcases ht with hlt | rfl
  · rw [if_pos hlt]
  · rw [if_neg (Nat.lt_irrefl _)]

theorem lt_of_asleep {on : Wait} (asleep : on.isOver w = false)
    (timer : earliest? on.timers = some t) : w.clock.nanos < t.nanos := by
  have hmem := mem_of_earliest? timer
  unfold Wait.isOver at asleep
  rw [Bool.or_eq_false_iff] at asleep
  have ht := List.any_eq_false.mp asleep.2 t hmem
  simp only [Instant.reached, decide_eq_true_eq] at ht
  omega

theorem isOver_atInstant {on : Wait} (timer : earliest? on.timers = some t) :
    on.isOver (w.atInstant t) = true := by
  have hmem := mem_of_earliest? timer
  unfold Wait.isOver
  rw [Bool.or_eq_true]
  exact Or.inr (List.any_eq_true.mpr ⟨t, hmem, decide_eq_true (Nat.le_refl t.nanos)⟩)

/-! ### Rounds of a schedule -/

theorem settle_done (rounds : Nat) (a : α) (w : World) :
    settle none [] rounds [.done a] w = ([.done a], w) := by
  cases rounds with
  | zero => rfl
  | succ rounds => rfl

/-- Work that waits is gone on with two rounds later: the clock jumps, then it is looked at. -/
theorem settle_waiting {on : Wait} {resume : World → Process α × World} (rounds : Nat)
    (asleep : on.isOver w = false) (timer : earliest? on.timers = some t) :
    settle none [] (rounds + 2) [.waiting on resume] w =
      settle none [] rounds [(resume (w.atInstant t)).1] (resume (w.atInstant t)).2 := by
  have hlater : w.clock.later t = t := if_pos (lt_of_asleep asleep timer)
  have hjump : advanceTo t [] w = w.atInstant t := by
    change { w with clock := w.clock.later t } = _
    rw [hlater]
    rfl
  have hnext : nextInstant? none [Process.waiting on resume] [] w = some t := by
    have htimers : nextInstant? none [Process.waiting on resume] [] w =
        (earliest? (on.timers ++ [] ++ [])).filter (mayJump none w) := rfl
    rw [htimers, List.append_nil, List.append_nil, timer]
    rfl
  have hover : on.isOver (w.atInstant t) = true := isOver_atInstant timer
  simp only [settle, isReady, Process.wait?, List.any_cons, List.any_nil, List.all_cons,
    Option.any_some, asleep, hnext, hjump, hover, pollAll, Process.poll, if_true, Bool.or_false,
    Bool.false_eq_true, if_false, Option.isNone_some, Bool.false_and]

/-- With two rounds for each wait a schedule takes work to its end. -/
theorem settle_of_ticks (h : p.Ticks token limit late n w x v) {rounds : Nat}
    (hn : 2 * n ≤ rounds) : settle none [] rounds [p] w = ([.done (x.getD late)], v) := by
  induction h generalizing rounds with
  | done a w => exact settle_done rounds a w
  | waited asleep _ timer _ _ ih =>
    obtain ⟨rest, rfl⟩ : ∃ rest, rounds = rest + 2 := ⟨rounds - 2, by omega⟩
    rw [settle_waiting rest asleep timer]
    exact ih (by omega)
  | expired asleep _ timer ends =>
    obtain ⟨rest, rfl⟩ : ∃ rest, rounds = rest + 2 := ⟨rounds - 2, by omega⟩
    rw [settle_waiting rest asleep timer, ends]
    exact settle_done rest late _

theorem run_of_ticks {f : Future α} (h : (f w).1.Ticks token limit late n (f w).2 x v)
    (hn : 2 * n ≤ (f w).2.patience) : run none [] [f] w = ([some (x.getD late)], v) := by
  have hrun : run none [] [f] w =
      ((settle none [] (f w).2.patience [(f w).1] (f w).2).1.map Process.result?,
        (settle none [] (f w).2.patience [(f w).1] (f w).2).2) := rfl
  rw [hrun, settle_of_ticks h hn]
  rfl

end Schedule

namespace Process.Ticks

/-! ### Work within bounds -/

/-- A stop that applies from the limit on cuts work off exactly where it would expire. -/
theorem cutOff {stop : World → Option α} (h : p.Ticks token limit late n w x v)
    (before : ∀ u, u.isCanceled token = false → u.clock.nanos < limit.nanos → stop u = none)
    (there : ∀ u, u.isCanceled token = false → u.clock = limit → stop u = some late') :
    (p.cutOff stop ⟨[token], [limit]⟩).Ticks token limit late' n w x v := by
  have hasleep : ∀ {on : Wait} {u : World} {t : Instant}, on.isOver u = false →
      u.isCanceled token = false → Schedule.earliest? on.timers = some t →
      t.nanos ≤ limit.nanos → (Wait.or ⟨[token], [limit]⟩ on).isOver u = false := by
    intro on u t asleep calm timer hle
    have hlt := Schedule.lt_of_asleep asleep timer
    have hlimit : limit.reached u.clock = false := decide_eq_false (by omega)
    rw [Wait.isOver_or, asleep]
    simp only [Wait.isOver, List.any_cons, List.any_nil, calm, hlimit, Bool.or_false]
  induction h with
  | done a w =>
    rw [cutOff_done]
    exact .done a w
  | @waited n on resume w v t x asleep calm timer early _ ih =>
    have hstop : stop (w.atInstant t) = none := before _ calm early
    rw [cutOff_waiting]
    refine .waited (hasleep asleep calm timer (Nat.le_of_lt early)) calm
      (Schedule.earliest?_cons timer (Or.inl early)) early ?_
    simp only [hstop]
    exact ih
  | @expired on resume w asleep calm timer _ =>
    have hstop : stop (w.atInstant limit) = some late' := there _ calm rfl
    rw [cutOff_waiting]
    refine .expired (hasleep asleep calm timer (Nat.le_refl _)) calm
      (Schedule.earliest?_cons timer (Or.inr rfl)) ?_
    simp only [hstop]

end Process.Ticks

/-- Work within bounds that expire with it: the bounds come first and say what it ends in. -/
theorem Bounds.ticks_limit {b : Bounds} {f : Future (Except CallError α)}
    {late : Except CallError α} {x : Option (Except CallError α)}
    (h : (f w).1.Ticks b.token limit late n (f w).2 x v) (hb : b.broken? w = none)
    (hlimit : b.deadline = some limit) :
    (b.limit f w).1.Ticks b.token limit (.error (.deadlineExceeded b.expired)) n
      (b.limit f w).2 x v := by
  have hwait : b.wait = ⟨[b.token], [limit]⟩ := by
    unfold Bounds.wait
    rw [hlimit]
    rfl
  have hpast : ∀ u : World, u.isPast b.deadline = decide (limit.nanos ≤ u.clock.nanos) := by
    intro u
    rw [hlimit]
    rfl
  rw [Bounds.limit_of_unbroken hb, hwait]
  refine h.cutOff (fun u calm early => ?_) (fun u calm there => ?_)
  · have hnone : b.broken? u = none :=
      broken?_eq_none.mpr ⟨calm, (hpast u).trans (decide_eq_false (Nat.not_le.mpr early))⟩
    rw [hnone, Option.map_none]
  · have hle : limit.nanos ≤ u.clock.nanos := Nat.le_of_eq (congrArg Instant.nanos there.symm)
    rw [broken?_of_past calm ((hpast u).trans (decide_eq_true hle)), Option.map_some]

end RpcPolicy
