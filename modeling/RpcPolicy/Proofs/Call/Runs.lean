import RpcPolicy.Call.Interceptor
/-! Runs of work, with an environment that may act between two looks, and traces of worlds. Main
statements: the rules by which all runs of composed work finish. -/

namespace RpcPolicy

/-- What may become of the world between two looks at some work. -/
abbrev Environment := World → World → Prop

variable {α β : Type} {env : Environment} {Q Q' : α → World → Prop} {S S' : World → Prop}

namespace Process

/-- Some run of a process finishes with a result in a world. -/
inductive Ends (env : Environment) : Process α → World → α → World → Prop
  | done (a : α) (w : World) : Ends env (.done a) w a w
  | resumed {on : Wait} {resume : World → Process α × World} {w v v' : World} {a : α}
      (act : env w v) (ended : on.isOver v = true)
      (rest : Ends env (resume v).1 (resume v).2 a v') :
      Ends env (.waiting on resume) w a v'

/-- Every run of a process finishes with a result and a world in `Q`, or is given up in a world
in `S`; a wait on the way can always come to its end. -/
inductive Completes (env : Environment) (Q : α → World → Prop) (S : World → Prop) :
    Process α → World → Prop
  | done {a : α} {w : World} (result : Q a w) : Completes env Q S (.done a) w
  | waiting {on : Wait} {resume : World → Process α × World} {w : World}
      (ready : ∃ v, env w v ∧ on.isOver v = true)
      (rest : ∀ v, env w v → on.isOver v = true →
        Completes env Q S (resume v).1 (resume v).2) :
      Completes env Q S (.waiting on resume) w
  | stuck {w : World} (unfollowed : S w) : Completes env Q S .stuck w

/-- A run of composed work is a run of the first part, then one of the second. -/
theorem Ends.of_bind {p : Process α} {k : α → Future β} {b : β} {w v : World}
    (h : (p.bind k w).1.Ends env (p.bind k w).2 b v) :
    ∃ a u, p.Ends env w a u ∧ (k a u).1.Ends env (k a u).2 b v := by
  induction p using Process.induct generalizing w with
  | done a =>
    rw [bind_done] at h
    exact ⟨a, w, .done a w, h⟩
  | waiting on resume ih =>
    rw [bind_waiting] at h
    cases h with
    | resumed act ended rest =>
      obtain ⟨a, u, hfirst, hrest⟩ := ih _ rest
      exact ⟨a, u, .resumed act ended hfirst, hrest⟩
  | stuck =>
    rw [bind_stuck] at h
    cases h

namespace Completes

variable {p : Process α} {w : World}

theorem mono (h : Completes env Q S p w) (hq : ∀ a v, Q a v → Q' a v) (hs : ∀ v, S v → S' v) :
    Completes env Q' S' p w := by
  induction h with
  | done result => exact .done (hq _ _ result)
  | waiting ready _ ih => exact .waiting ready ih
  | stuck unfollowed => exact .stuck (hs _ unfollowed)

/-- The run that finished is one of the runs of the process. -/
theorem and_ends (h : Completes env Q S p w) :
    Completes env (fun a v => Q a v ∧ p.Ends env w a v) S p w := by
  induction h with
  | done result => exact .done ⟨result, .done _ _⟩
  | waiting ready _ ih =>
    refine .waiting ready fun v act ended => ?_
    exact (ih v act ended).mono (fun a u hq => ⟨hq.1, .resumed act ended hq.2⟩) (fun _ hs => hs)
  | stuck unfollowed => exact .stuck unfollowed

/-- What holds of all runs holds of each one that finishes. -/
theorem of_ends {a : α} {v : World} (h : Completes env Q S p w) (hr : p.Ends env w a v) :
    Q a v := by
  induction h with
  | done result =>
    cases hr
    exact result
  | waiting ready _ ih =>
    cases hr with
    | resumed act ended rest => exact ih _ act ended rest
  | stuck unfollowed => cases hr

theorem bind {R : β → World → Prop} {k : α → Future β} (h : Completes env Q S p w)
    (hk : ∀ a v, Q a v → Completes env R S (k a v).1 (k a v).2) :
    Completes env R S (p.bind k w).1 (p.bind k w).2 := by
  induction h with
  | done result => simpa using hk _ _ result
  | waiting ready _ ih =>
    rw [bind_waiting]
    exact .waiting ready ih
  | stuck unfollowed =>
    rw [bind_stuck]
    exact .stuck unfollowed

/-- A stop that never applies changes nothing. -/
theorem cutOff {stop : World → Option α} {wake : Wait}
    (h : Completes env Q (fun _ => False) p w)
    (hstop : ∀ w v, env w v → stop v = none) (hwake : ∀ w v, env w v → wake.isOver v = false) :
    Completes env Q S (p.cutOff stop wake) w := by
  induction h with
  | done result =>
    rw [cutOff_done]
    exact .done result
  | waiting ready _ ih =>
    rw [cutOff_waiting]
    obtain ⟨v, act, ended⟩ := ready
    refine .waiting ⟨v, act, by simp [ended]⟩ fun u hu hended => ?_
    rw [Wait.isOver_or, hwake _ u hu, Bool.false_or] at hended
    simpa only [hstop _ u hu] using ih u hu hended
  | stuck unfollowed => exact unfollowed.elim

end Completes

end Process

namespace Future

/-- Some run of work that is first looked at in `w` finishes with a result in a world. -/
def Ends (env : Environment) (f : Future α) (w : World) (a : α) (v : World) : Prop :=
  (f w).1.Ends env (f w).2 a v

/-- Every run of work that is first looked at in `w` finishes in `Q`, or is given up in `S`. -/
def Completes (env : Environment) (f : Future α) (w : World) (Q : α → World → Prop)
    (S : World → Prop) : Prop :=
  (f w).1.Completes env Q S (f w).2

variable {f : Future α} {w : World}

/-- Only the first look tells two pieces of work apart. -/
theorem Completes.of_eq {g : Future α} {v : World} (h : g.Completes env v Q S)
    (he : f w = g v) : f.Completes env w Q S := by
  unfold Completes at h ⊢
  rwa [he]

theorem Ends.of_eq {g : Future α} {a : α} {u v : World} (h : f.Ends env w a u)
    (he : f w = g v) : g.Ends env v a u := by
  unfold Ends at h ⊢
  rwa [he] at h

theorem Completes.mono (h : f.Completes env w Q S) (hq : ∀ a v, Q a v → Q' a v)
    (hs : ∀ v, S v → S' v) : f.Completes env w Q' S' :=
  Process.Completes.mono h hq hs

theorem Completes.and_ends (h : f.Completes env w Q S) :
    f.Completes env w (fun a v => Q a v ∧ f.Ends env w a v) S :=
  Process.Completes.and_ends h

theorem Completes.of_ends {a : α} {v : World} (h : f.Completes env w Q S)
    (hr : f.Ends env w a v) : Q a v :=
  Process.Completes.of_ends h hr

theorem Completes.bind {R : β → World → Prop} {k : α → Future β} (h : f.Completes env w Q S)
    (hk : ∀ a v, Q a v → (k a).Completes env v R S) : (Future.bind f k).Completes env w R S :=
  Process.Completes.bind h hk

theorem Ends.of_bind {k : α → Future β} {b : β} {v : World}
    (h : (Future.bind f k).Ends env w b v) : ∃ a u, f.Ends env w a u ∧ (k a).Ends env u b v :=
  Process.Ends.of_bind h

theorem ends_ready {a b : α} {v : World} (h : (Future.ready a).Ends env w b v) :
    b = a ∧ v = w := by
  cases h
  exact ⟨rfl, rfl⟩

theorem completes_ready {a : α} (h : Q a w) : (Future.ready a).Completes env w Q S :=
  .done h

/-- Bounds that are never broken do not show. -/
theorem Completes.limit {f : Future (Except CallError α)} {Q : Except CallError α → World → Prop}
    {b : Bounds} (h : f.Completes env w Q fun _ => False) (hw : b.broken? w = none)
    (hb : ∀ w v, env w v → b.broken? v = none) :
    (b.limit f).Completes env w Q S := by
  have hlimit : Process.Completes env Q S
      (Process.cutOff (fun w => (b.broken? w).map .error) b.wait (f w).1) (f w).2 := by
    apply Process.Completes.cutOff h
    · intro w v hv
      rw [hb w v hv, Option.map_none]
    · intro w v hv
      rw [← b.isSome_broken?, hb w v hv, Option.isSome_none]
  simpa [Completes, Bounds.limit, Future.cutOff, hw] using hlimit

end Future

/-- Things that happened in order between two worlds; silent steps may come at any point. -/
inductive Trace {Act : Type} (silent : Environment) (does : Act → World → World → Prop) :
    List Act → World → World → Prop
  | refl (w : World) : Trace silent does [] w w
  | quiet {acts : List Act} {w v v' : World} (step : silent w v)
      (rest : Trace silent does acts v v') : Trace silent does acts w v'
  | act {a : Act} {acts : List Act} {w v v' : World} (step : does a w v)
      (rest : Trace silent does acts v v') : Trace silent does (a :: acts) w v'

namespace Trace

variable {Act : Type} {silent : Environment} {does : Act → World → World → Prop}
  {a : Act} {acts more : List Act} {u v w : World}

theorem trans (h : Trace silent does acts u v) (h' : Trace silent does more v w) :
    Trace silent does (acts ++ more) u w := by
  induction h with
  | refl => exact h'
  | quiet step _ ih => exact .quiet step (ih h')
  | act step _ ih => exact .act step (ih h')

theorem single (h : does a v w) : Trace silent does [a] v w :=
  .act h (.refl w)

theorem silently (h : silent v w) : Trace silent does [] v w :=
  .quiet h (.refl w)

theorem concat (h : Trace silent does acts u v) (step : does a v w) :
    Trace silent does (acts ++ [a]) u w :=
  h.trans (single step)

theorem concat_quiet (h : Trace silent does acts u v) (step : silent v w) :
    Trace silent does acts u w := by
  simpa using h.trans (silently step)

/-- What every step keeps, whole traces keep. -/
theorem keeps {I : World → Prop} (h : Trace silent does acts u v)
    (hsilent : ∀ u v, silent u v → I u → I v) (hdoes : ∀ a u v, does a u v → I u → I v)
    (hu : I u) : I v := by
  induction h with
  | refl => exact hu
  | quiet step _ ih => exact ih (hsilent _ _ step hu)
  | act step _ ih => exact ih (hdoes _ _ _ step hu)

end Trace

end RpcPolicy
