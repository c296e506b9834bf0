import RpcPolicy.Call.Retry
import RpcPolicy.Proofs.Call.Runs
/-! A clock that only moves forward, as the one thing that changes between two looks. Main
statement: every sleep until an instant ends, and changes nothing but the clock. -/

namespace RpcPolicy

/-- Time passes, and nothing else happens. -/
def Passes : Environment := fun w v =>
  ∃ now, w.clock.nanos ≤ now.nanos ∧ v = { w with clock := now }

/-- Time passes while a signal is not canceled. -/
def Calm (token : Token) : Environment := fun w v =>
  Passes w v ∧ v.isCanceled token = false

namespace Passes

variable {u v w : World}

theorem refl (w : World) : Passes w w := ⟨w.clock, Nat.le_refl _, rfl⟩

theorem trans (h : Passes u v) (hw : Passes v w) : Passes u w := by
  obtain ⟨s, hs, rfl⟩ := h
  obtain ⟨t, ht, rfl⟩ := hw
  exact ⟨t, Nat.le_trans hs ht, rfl⟩

theorem isCanceled (h : Passes w v) (token : Token) : v.isCanceled token = w.isCanceled token := by
  obtain ⟨t, -, rfl⟩ := h
  rfl

/-- An instant can always come, and may be waited for. -/
theorem exists_reached (w : World) (t : Instant) :
    ∃ v, Passes w v ∧ t.reached v.clock = true := by
  by_cases h : w.clock.nanos ≤ t.nanos
  · exact ⟨{ w with clock := t }, ⟨t, h, rfl⟩, by simp [Instant.reached]⟩
  · exact ⟨w, refl w, by simp only [Instant.reached, decide_eq_true_eq]; omega⟩

end Passes

variable {token : Token} {t : Instant} {w : World} {S : World → Prop}

theorem sleepUntil_completes (hw : w.isCanceled token = false) :
    (Future.sleepUntil t).Completes (Calm token) w
      (fun _ v => Passes w v ∧ t.reached v.clock = true) S := by
  unfold Future.Completes Future.sleepUntil
  split
  · exact .done ⟨.refl w, by assumption⟩
  · obtain ⟨v, hv, ht⟩ := Passes.exists_reached w t
    refine .waiting ⟨v, ⟨hv, (hv.isCanceled token).trans hw⟩, by simp [Wait.isOver, ht]⟩ ?_
    intro u hu ended
    exact .done ⟨hu.1, by simpa [Wait.isOver] using ended⟩

/-- A sleep itself does nothing to the world. -/
theorem sleepUntil_ends {env : Environment} {v : World}
    (h : (Future.sleepUntil t).Ends env w () v) : v = w ∨ env w v := by
  unfold Future.Ends Future.sleepUntil at h
  split at h
  · cases h
    exact Or.inl rfl
  · cases h with
    | resumed act ended rest =>
      cases rest
      exact Or.inr act

namespace Sleep

/-- The work of a sleep, asked for when it is looked at. -/
def begun (sleep : Sleep) (delay : Duration) : Future Unit := fun w =>
  (sleep delay w).1 (sleep delay w).2

variable {delay : Duration}

theorem begun_timer : timer.begun delay w = Future.sleepUntil (w.clock.after delay) w := rfl

theorem timer_completes (hw : w.isCanceled token = false) :
    (timer.begun delay).Completes (Calm token) w
      (fun _ v => Passes w v ∧ (w.clock.after delay).reached v.clock = true) S :=
  (sleepUntil_completes hw).of_eq begun_timer

theorem timer_ends {env : Environment} {v : World} (h : (timer.begun delay).Ends env w () v) :
    v = w ∨ env w v :=
  sleepUntil_ends (h.of_eq begun_timer)

end Sleep

end RpcPolicy
