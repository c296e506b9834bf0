import RpcPolicy.Rehearsal.Requests
/-! The deadline of a request through commands that set it and move the clock. Main statement:
commands fail exactly when one of them asks for a deadline past the last instant, and else the time
left is the way from the clock to the deadline that was set last, nothing once that has come. -/

namespace RpcPolicy.Requests

/-! ### Commands in numbers -/

/-- How far a command moves the clock. -/
def Command.passed : Command → Nat
  | .advance length => length.nanos
  | _ => 0

/-- Whether a command sets the deadline. -/
def Command.sets : Command → Bool
  | .timeout _ | .deadline _ => true
  | _ => false

/-- The deadline a command asks for when the clock reads `now`, counted from the start of the
clock. There need not be such an instant. -/
def Command.target? (now : Nat) : Command → Option Nat
  | .timeout length => some (now + length.nanos)
  | .deadline length => some length.nanos
  | _ => none

/-- What the clock reads after some commands; it stops at the last instant. -/
def reading (start : Nat) (cs : List Command) : Nat :=
  min (start + cs.foldr (fun c n => c.passed + n) 0) Instant.last.nanos

/-- One of some commands asks for a deadline past the last instant. -/
def Overflows (start : Nat) (cs : List Command) : Prop :=
  ∃ before c after n, cs = before ++ c :: after ∧ c.target? (reading start before) = some n ∧
    Instant.bound ≤ n

/-- The deadline after some commands: the one there was, or the one that was set last. -/
inductive LastDeadline (first : Option Nat) (start : Nat) (cs : List Command) : Option Nat → Prop
  | kept (none : ∀ c ∈ cs, c.sets = false) : LastDeadline first start cs first
  | set {before after : List Command} {c : Command} {n : Nat} (split : cs = before ++ c :: after)
      (target : c.target? (reading start before) = some n)
      (last : ∀ d ∈ after, d.sets = false) : LastDeadline first start cs (some n)

variable {r r' : Request} {w w' : World} {c : Command} {cs before after : List Command}
  {first : Option Nat} {start n : Nat}

theorem target?_eq_none : c.target? start = none ↔ c.sets = false := by
  cases c <;> simp [Command.target?, Command.sets]

theorem reading_nil (t : Instant) : reading t.nanos [] = t.nanos := by
  have hlt := t.nanos_lt
  have hlast : Instant.last.nanos + 1 = Instant.bound := rfl
  rw [reading, List.foldr_nil]
  omega

/-- The clock may be read in between. -/
theorem reading_cons : reading start (c :: cs) = reading (reading start [c]) cs := by
  simp only [reading, List.foldr_cons, List.foldr_nil]
  omega

theorem overflows_cons :
    Overflows start (c :: cs) ↔
      (∃ n, c.target? (reading start []) = some n ∧ Instant.bound ≤ n) ∨
        Overflows (reading start [c]) cs := by
  constructor
  · rintro ⟨before, d, after, n, hsplit, htarget, hn⟩
    cases before with
    | nil =>
      obtain ⟨rfl, -⟩ := List.cons.inj hsplit
      exact Or.inl ⟨n, htarget, hn⟩
    | cons b before =>
      obtain ⟨rfl, hrest⟩ := List.cons.inj hsplit
      rw [reading_cons] at htarget
      exact Or.inr ⟨before, d, after, n, hrest, htarget, hn⟩
  · rintro (⟨n, htarget, hn⟩ | ⟨before, d, after, n, rfl, htarget, hn⟩)
    · exact ⟨[], c, cs, n, rfl, htarget, hn⟩
    · rw [← reading_cons] at htarget
      exact ⟨c :: before, d, after, n, rfl, htarget, hn⟩

/-! ### One command -/

theorem obey_eq_none :
    obey r w c = none ↔ ∃ n, c.target? w.clock.nanos = some n ∧ Instant.bound ≤ n := by
  have hstart : Instant.start.nanos = 0 := rfl
  cases c with
  | timeout length =>
    simp [obey, Command.target?, Request.withTimeout?, Instant.add?_eq_none]
  | deadline length =>
    simp [obey, Command.target?, Request.withTimeout?, Instant.add?_eq_none, hstart]
  | _ => simp [obey, Command.target?]

theorem nanos_withTimeout? {now : Instant} {timeout : Duration}
    (h : r.withTimeout? now timeout = some r') :
    r'.deadline.map Instant.nanos = some (now.nanos + timeout.nanos) := by
  obtain ⟨t, ht, rfl⟩ := Option.map_eq_some_iff.mp h
  exact congrArg some (Instant.nanos_of_add? ht)

/-- A command that is obeyed sets the deadline it asks for, and moves the clock. -/
theorem obeyed (h : obey r w c = some (r', w')) :
    (∀ n, c.target? w.clock.nanos = some n → r'.deadline.map Instant.nanos = some n) ∧
      (c.sets = false → r'.deadline = r.deadline) ∧
      w'.clock.nanos = reading w.clock.nanos [c] := by
  have hread := reading_nil w.clock
  cases c with
  | timeout length =>
    obtain ⟨s, hs, heq⟩ := Option.map_eq_some_iff.mp h
    obtain ⟨rfl, rfl⟩ := Prod.mk.inj heq
    have hset := nanos_withTimeout? hs
    exact ⟨fun n hn => hset.trans hn, fun hsets => (nomatch hsets), hread.symm⟩
  | deadline length =>
    obtain ⟨s, hs, heq⟩ := Option.map_eq_some_iff.mp h
    obtain ⟨rfl, rfl⟩ := Prod.mk.inj heq
    have hset := nanos_withTimeout? hs
    have hstart : Instant.start.nanos + length.nanos = length.nanos := Nat.zero_add _
    rw [hstart] at hset
    exact ⟨fun n hn => hset.trans hn, fun hsets => (nomatch hsets), hread.symm⟩
  | advance length =>
    cases h
    exact ⟨fun n hn => (nomatch hn), fun _ => rfl, Instant.nanos_after _ _⟩
  | _ =>
    cases h
    exact ⟨fun n hn => (nomatch hn), fun _ => rfl, hread.symm⟩

/-! ### Any number of commands -/

/-- What a request and its world are after some commands. -/
inductive Obeyed : Request → World → List Command → Request → World → Prop
  | nil (r : Request) (w : World) : Obeyed r w [] r w
  | cons {r r' s : Request} {w w' v : World} {c : Command} {cs : List Command}
      (step : obey r w c = some (r', w')) (rest : Obeyed r' w' cs s v) : Obeyed r w (c :: cs) s v

theorem Obeyed.clock {s : Request} {v : World} (h : Obeyed r w cs s v) :
    v.clock.nanos = reading w.clock.nanos cs := by
  induction h with
  | nil r w => exact (reading_nil w.clock).symm
  | cons step _ ih =>
    obtain ⟨-, -, hclock⟩ := obeyed step
    rw [ih, hclock, ← reading_cons]

theorem Obeyed.deadline {s : Request} {v : World} (h : Obeyed r w cs s v) :
    LastDeadline (r.deadline.map Instant.nanos) w.clock.nanos cs
      (s.deadline.map Instant.nanos) := by
  induction h with
  | nil r w => exact .kept (List.forall_mem_nil _)
  | @cons r r' s w w' v c cs step rest ih =>
    obtain ⟨hset, hkept, hclock⟩ := obeyed step
    rw [hclock] at ih
    generalize s.deadline.map Instant.nanos = last at ih
    -- Unless the rest sets a deadline, the last one is that of this command or the one before it.
    cases ih with
    | kept hnone =>
      cases htarget : c.target? w.clock.nanos with
      | none =>
        have hsets := target?_eq_none.mp htarget
        rw [hkept hsets]
        exact .kept (List.forall_mem_cons.mpr ⟨hsets, hnone⟩)
      | some n =>
        rw [hset n htarget]
        have hsplit : c :: cs = [] ++ c :: cs := rfl
        exact .set hsplit (by rwa [reading_nil]) hnone
    | set split target last =>
      rw [← reading_cons] at target
      exact .set (congrArg (c :: ·) split) target last

/-- Every reading is one after some of the commands, in their order. -/
theorem obeyed_of_run? {readings : List Reading} (h : run? r w cs = some readings) :
    readings.length = cs.length ∧ ∀ i g, readings[i]? = some g →
      ∃ v, Obeyed r w (cs.take (i + 1)) g.request v ∧ g.now = v.clock := by
  induction cs generalizing r w readings with
  | nil =>
    cases h
    exact ⟨rfl, fun i g hg => (nomatch hg)⟩
  | cons c cs ih =>
    simp only [run?, Option.bind_eq_bind, Option.bind_eq_some_iff] at h
    obtain ⟨⟨r', w'⟩, hstep, later, hlater, heq⟩ := h
    cases heq
    obtain ⟨hlength, hreadings⟩ := ih hlater
    refine ⟨congrArg (· + 1) hlength, fun i g hg => ?_⟩
    cases i with
    | zero =>
      cases hg
      exact ⟨w', .cons hstep (.nil r' w'), rfl⟩
    | succ i =>
      obtain ⟨v, hrest, hnow⟩ := hreadings i g hg
      exact ⟨v, .cons hstep hrest, hnow⟩

theorem run?_eq_none : run? r w cs = none ↔ Overflows w.clock.nanos cs := by
  induction cs generalizing r w with
  | nil => simp [run?, Overflows]
  | cons c cs ih =>
    have hfails := obey_eq_none (r := r) (w := w) (c := c)
    rw [overflows_cons, reading_nil, ← hfails]
    cases hstep : obey r w c with
    | none => simp [run?, hstep]
    | some s =>
      obtain ⟨r', w'⟩ := s
      obtain ⟨-, -, hclock⟩ := obeyed hstep
      rw [← hclock, ← ih (r := r')]
      cases hrest : run? r' w' cs <;> simp [run?, hstep, hrest]

/-! ### The time left -/

theorem nanos_remaining (r : Request) (now : Instant) :
    (r.remaining now).map Duration.nanos =
      (r.deadline.map Instant.nanos).map (· - now.nanos) := by
  cases h : r.deadline with
  | none => simp [Request.remaining, h]
  | some t => simp [Request.remaining, h, Instant.nanos_since]

theorem remaining_le {now later : Instant} {d : Duration} (hlater : now.nanos ≤ later.nanos)
    (h : r.remaining now = some d) :
    ∃ e, r.remaining later = some e ∧ e.nanos ≤ d.nanos := by
  obtain ⟨t, ht, rfl⟩ := Option.map_eq_some_iff.mp h
  refine ⟨t.since later, by rw [Request.remaining, ht, Option.map_some], ?_⟩
  rw [Instant.nanos_since, Instant.nanos_since]
  omega

/-- No clock reads so early that a timeout of `2^63` seconds has an end. -/
theorem overflows_of_timeout {length : Duration} (hmem : Command.timeout length ∈ cs)
    (hlength : Instant.bound ≤ length.nanos) : Overflows start cs := by
  obtain ⟨before, after, rfl⟩ := List.append_of_mem hmem
  exact ⟨before, _, after, _, rfl, rfl, Nat.le_trans hlength (Nat.le_add_left ..)⟩

/-- Commands fail exactly when one of them asks for a deadline past the last instant. Otherwise each
reading shows what is missing to the deadline that was set last. -/
theorem run_deadlines (r : Request) (w : World) (cs : List Command) :
    (run? r w cs = none ↔ Overflows w.clock.nanos cs) ∧
    (∀ length, Command.timeout length ∈ cs → Instant.bound ≤ length.nanos →
      run? r w cs = none) ∧
    ∀ readings, run? r w cs = some readings → readings.length = cs.length ∧
      ∀ i g, readings[i]? = some g →
        g.now.nanos = reading w.clock.nanos (cs.take (i + 1)) ∧
        (∃ last, LastDeadline (r.deadline.map Instant.nanos) w.clock.nanos (cs.take (i + 1)) last ∧
          (g.request.remaining g.now).map Duration.nanos = last.map (· - g.now.nanos)) ∧
        ∀ later d, g.now.nanos ≤ later.nanos → g.request.remaining g.now = some d →
          ∃ e, g.request.remaining later = some e ∧ e.nanos ≤ d.nanos := by
  refine ⟨run?_eq_none, fun length hmem hlength => ?fails, fun readings hrun => ?holds⟩
  case fails => exact run?_eq_none.mpr (overflows_of_timeout hmem hlength)
  case holds =>
    obtain ⟨hlength, hreadings⟩ := obeyed_of_run? hrun
    refine ⟨hlength, fun i g hg => ?_⟩
    obtain ⟨v, hobeyed, hnow⟩ := hreadings i g hg
    exact ⟨hnow ▸ hobeyed.clock, ⟨_, hobeyed.deadline, nanos_remaining _ _⟩,
      fun _ _ => remaining_le⟩

/-- The longest length of time cannot be a timeout: there is no such deadline. -/
theorem longest_timeout_fails :
    run? (.ofBody "/p/m" default 0) .initial [.timeout .longest] = none := rfl

/-- The longest timeout; and a timeout that a deadline replaces, looked at when that is past. -/
theorem run_deadlines_replaced :
    let r := Request.ofBody "/p/m" default 0
    let cs : List Command :=
      [.timeout (.ofSeconds 9), .deadline (.ofSeconds 5), .advance (.ofSeconds 6)]
    run? r .initial [.timeout .longest] = none ∧
    ∃ readings g, run? r .initial cs = some readings ∧ readings[2]? = some g ∧
      g.now.nanos = reading 0 cs ∧
      (∃ last, LastDeadline none 0 cs last ∧
        (g.request.remaining g.now).map Duration.nanos = last.map (· - g.now.nanos)) ∧
      g.request.remaining g.now = some .zero ∧
      ∃ e, g.request.remaining .last = some e ∧ e.nanos ≤ Duration.zero.nanos := by
  intro r cs
  obtain ⟨-, hfails, -⟩ := run_deadlines r .initial [.timeout .longest]
  obtain ⟨-, -, hholds⟩ := run_deadlines r .initial cs
  have hbound : Instant.bound ≤ Duration.longest.nanos := by decide
  obtain ⟨readings, hrun⟩ : ∃ readings, run? r .initial cs = some readings := ⟨_, rfl⟩
  obtain ⟨-, hreadings⟩ := hholds readings hrun
  obtain ⟨g, hg⟩ : ∃ g, readings[2]? = some g := by
    cases hrun
    exact ⟨_, rfl⟩
  obtain ⟨hnow, hlast, hlater⟩ := hreadings 2 g hg
  have hpast : g.request.remaining g.now = some .zero ∧ g.now.nanos ≤ Instant.last.nanos := by
    cases hrun
    cases hg
    decide
  exact ⟨hfails _ (List.mem_singleton_self _) hbound, readings, g, hrun, hg, hnow, hlast, hpast.1,
    hlater .last .zero hpast.2 hpast.1⟩

end RpcPolicy.Requests
