import RpcPolicy.Proofs.Call.Clock
import RpcPolicy.Proofs.Call.Looks
/-! Runs that come to a standstill. Main statements: every run ends or stands still, and composed
work does so in one of its parts. -/

namespace RpcPolicy

/-- Anything may become of the world, except that a signal is canceled. -/
def Uncanceled (token : Token) : Environment := fun _ v => v.isCanceled token = false

variable {α β : Type} {env : Environment}

namespace Process

/-- Some run of a process stands still in a world: it is given up there, or waits for what cannot
come. -/
inductive Halts (env : Environment) : Process α → World → World → Prop
  | stuck (w : World) : Halts env .stuck w w
  | waiting {on : Wait} {resume : World → Process α × World} {w : World}
      (never : ∀ v, env w v → on.isOver v = false) : Halts env (.waiting on resume) w w
  | resumed {on : Wait} {resume : World → Process α × World} {w v v' : World}
      (act : env w v) (ended : on.isOver v = true)
      (rest : Halts env (resume v).1 (resume v).2 v') : Halts env (.waiting on resume) w v'

variable {p : Process α} {k : α → Future β} {stop : World → Option α} {wake : Wait} {a : α}
  {v w : World}

/-- Composed work stands still in its first part or, after that, in its second. -/
theorem Halts.of_bind (h : (p.bind k w).1.Halts env (p.bind k w).2 v) :
    p.Halts env w v ∨ ∃ a u, p.Ends env w a u ∧ (k a u).1.Halts env (k a u).2 v := by
  induction p using Process.induct generalizing w with
  | done a =>
    rw [bind_done] at h
    exact Or.inr ⟨a, w, .done a w, h⟩
  | waiting on resume ih =>
    rw [bind_waiting] at h
    cases h with
    | waiting never => exact Or.inl (.waiting never)
    | resumed act ended rest =>
      rcases ih _ rest with hfirst | ⟨a, u, hfirst, hsecond⟩
      · exact Or.inl (.resumed act ended hfirst)
      · exact Or.inr ⟨a, u, .resumed act ended hfirst, hsecond⟩
  | stuck =>
    rw [bind_stuck] at h
    cases h
    exact Or.inl (.stuck w)

section CutOff

variable (hstop : ∀ w v, env w v → stop v = none)
  (hwake : ∀ w v, env w v → wake.isOver v = false)

include hstop hwake

/-- Work that is never cut off ends as it would without the stop. -/
theorem Ends.of_cutOff (h : (p.cutOff stop wake).Ends env w a v) : p.Ends env w a v := by
  induction p using Process.induct generalizing w with
  | done b =>
    rw [cutOff_done] at h
    cases h
    exact .done a v
  | waiting on resume ih =>
    rw [cutOff_waiting] at h
    cases h with
    | resumed act ended rest =>
      rw [Wait.isOver_or, hwake _ _ act, Bool.false_or] at ended
      simp only [hstop _ _ act] at rest
      exact .resumed act ended (ih _ rest)
  | stuck =>
    rw [cutOff_stuck] at h
    cases h with
    | resumed act ended rest =>
      rw [hwake _ _ act] at ended
      cases ended

theorem Halts.of_cutOff (h : (p.cutOff stop wake).Halts env w v) : p.Halts env w v := by
  induction p using Process.induct generalizing w with
  | done b =>
    rw [cutOff_done] at h
    cases h
  | waiting on resume ih =>
    rw [cutOff_waiting] at h
    cases h with
    | waiting never =>
      refine .waiting fun u act => ?_
      have hnever := never u act
      rwa [Wait.isOver_or, hwake _ _ act, Bool.false_or] at hnever
    | resumed act ended rest =>
      rw [Wait.isOver_or, hwake _ _ act, Bool.false_or] at ended
      simp only [hstop _ _ act] at rest
      exact .resumed act ended (ih _ rest)
  | stuck =>
    rw [cutOff_stuck] at h
    cases h with
    | waiting never => exact .stuck v
    | resumed act ended rest =>
      rw [hwake _ _ act] at ended
      cases ended

end CutOff

end Process

namespace Future

/-- Some run of work that is first looked at in `w` stands still in a world. -/
def Halts (env : Environment) (f : Future α) (w v : World) : Prop :=
  (f w).1.Halts env (f w).2 v

/-- Every run of work that is first looked at in `w` ends in `Q` or stands still in `H`. -/
structure Leads (env : Environment) (f : Future α) (w : World) (Q : α → World → Prop)
    (H : World → Prop) : Prop where
  ends : ∀ a v, f.Ends env w a v → Q a v
  halts : ∀ v, f.Halts env w v → H v

namespace Leads

variable {f g : Future α} {k : α → Future β} {Q Q' : α → World → Prop} {R : β → World → Prop}
  {H H' : World → Prop} {a : α} {v w : World}

theorem ready (h : Q a w) : (Future.ready a).Leads env w Q H := by
  refine ⟨fun b v hends => ?_, fun v hhalts => ?_⟩
  · obtain ⟨rfl, rfl⟩ := ends_ready hends
    exact h
  · cases hhalts

theorem mono (h : f.Leads env w Q H) (hq : ∀ a v, Q a v → Q' a v) (hh : ∀ v, H v → H' v) :
    f.Leads env w Q' H' :=
  ⟨fun a v hends => hq a v (h.ends a v hends), fun v hhalts => hh v (h.halts v hhalts)⟩

/-- Only the first look tells two pieces of work apart. -/
theorem of_eq (h : g.Leads env v Q H) (he : f w = g v) : f.Leads env w Q H := by
  refine ⟨fun a u hends => h.ends a u (hends.of_eq he), fun u hhalts => h.halts u ?_⟩
  unfold Future.Halts at hhalts ⊢
  rwa [he] at hhalts

/-- The runs that end or stand still are runs of the work. -/
theorem and_runs (h : f.Leads env w Q H) :
    f.Leads env w (fun a v => Q a v ∧ f.Ends env w a v) fun v => H v ∧ f.Halts env w v :=
  ⟨fun a v hends => ⟨h.ends a v hends, hends⟩, fun v hhalts => ⟨h.halts v hhalts, hhalts⟩⟩

theorem bind (h : f.Leads env w Q H) (hk : ∀ a v, Q a v → (k a).Leads env v R H) :
    (Future.bind f k).Leads env w R H := by
  refine ⟨fun b v hends => ?_, fun v hhalts => ?_⟩
  · obtain ⟨a, u, hfirst, hsecond⟩ := Ends.of_bind hends
    exact (hk a u (h.ends a u hfirst)).ends b v hsecond
  · rcases Process.Halts.of_bind hhalts with hfirst | ⟨a, u, hfirst, hsecond⟩
    · exact h.halts v hfirst
    · exact (hk a u (h.ends a u hfirst)).halts v hsecond

/-- Bounds that are never broken do not show. -/
theorem limit {f : Future (Except CallError α)} {Q : Except CallError α → World → Prop}
    {b : Bounds} (h : f.Leads env w Q H) (hw : b.broken? w = none)
    (hb : ∀ w v, env w v → b.broken? v = none) : (b.limit f).Leads env w Q H := by
  have hlook := Bounds.limit_of_unbroken (f := f) hw
  have hstop : ∀ w v, env w v →
      (b.broken? v).map Except.error = (none : Option (Except CallError α)) := by
    intro w v act
    rw [hb w v act, Option.map_none]
  have hwake : ∀ w v, env w v → b.wait.isOver v = false := by
    intro w v act
    rw [← b.isSome_broken?, hb w v act, Option.isSome_none]
  refine ⟨fun x v hends => ?_, fun v hhalts => ?_⟩
  · unfold Future.Ends at hends
    rw [hlook] at hends
    exact h.ends x v (Process.Ends.of_cutOff hstop hwake hends)
  · unfold Future.Halts at hhalts
    rw [hlook] at hhalts
    exact h.halts v (Process.Halts.of_cutOff hstop hwake hhalts)

/-- Every sleep ends. -/
theorem sleepUntil {token : Token} {t : Instant} (hw : w.isCanceled token = false) :
    (Future.sleepUntil t).Leads (Uncanceled token) w (fun _ v => v.isCanceled token = false) H := by
  refine ⟨fun _ v hends => ?_, fun v hhalts => ?_⟩
  · rcases sleepUntil_ends hends with rfl | act
    · exact hw
    · exact act
  · obtain ⟨u, hu, hreached⟩ := Passes.exists_reached w t
    have hcome : Uncanceled token w u := (hu.isCanceled token).trans hw
    unfold Future.Halts Future.sleepUntil at hhalts
    split at hhalts
    · cases hhalts
    · cases hhalts with
      | waiting never =>
        have hnever := never u hcome
        simp [Wait.isOver, hreached] at hnever
      | resumed act ended rest => cases rest

end Leads

end Future

end RpcPolicy
