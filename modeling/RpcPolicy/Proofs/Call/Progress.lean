import RpcPolicy.Proofs.Call.Looks
import RpcPolicy.Proofs.Call.Runs
/-! What becomes of work after any number of looks, whether it has finished or not. Main statements:
what composed and bounded work becomes is what its parts become, and looks that keep to a relation
of worlds one by one keep to it together. -/

namespace RpcPolicy

variable {α β : Type} {env R : Environment} {a : α} {u v w : World}

/-- The acts of an environment that break no bound. -/
def Bounds.Within (b : Bounds) (env : Environment) : Environment := fun w v =>
  env w v ∧ b.broken? v = none

namespace Process

/-- Some looks at a process, each after an act of the environment, leave `q` of it in a world. -/
inductive Becomes (env : Environment) : Process α → World → Process α → World → Prop
  | same (p : Process α) (w : World) : Becomes env p w p w
  | looked {on : Wait} {resume : World → Process α × World} {w u v : World} {q : Process α}
      (act : env w u) (ended : on.isOver u = true)
      (rest : Becomes env (resume u).1 (resume u).2 q v) : Becomes env (.waiting on resume) w q v

variable {p q : Process α} {k : α → Future β} {r : Process β}

/-- What ends becomes its result. -/
theorem becomes_done_iff : p.Becomes env w (.done a) v ↔ p.Ends env w a v := by
  constructor
  · intro h
    generalize hq : Process.done a = q at h
    induction h with
    | same p w =>
      subst hq
      exact .done a w
    | looked act ended _ ih => exact .resumed act ended (ih hq)
  · intro h
    induction h with
    | done a w => exact .same _ w
    | resumed act ended _ ih => exact .looked act ended ih

theorem becomes_of_done (h : (Process.done a).Becomes env w q v) : q = .done a ∧ v = w := by
  cases h
  exact ⟨rfl, rfl⟩

theorem Becomes.mono (h : p.Becomes env w q v) (henv : ∀ u v, env u v → R u v) :
    p.Becomes R w q v := by
  induction h with
  | same p w => exact .same p w
  | looked act ended _ ih => exact .looked (henv _ _ act) ended ih

theorem Ends.mono (h : p.Ends env w a v) (henv : ∀ u v, env u v → R u v) : p.Ends R w a v :=
  becomes_done_iff.mp ((becomes_done_iff.mpr h).mono henv)

theorem Becomes.trans {t : Process α} (h : p.Becomes env w q u) (ht : q.Becomes env u t v) :
    p.Becomes env w t v := by
  induction h with
  | same => exact ht
  | looked act ended _ ih => exact .looked act ended (ih ht)

/-- Composed work is still in its first part, or that has ended and it is in its second. -/
theorem becomes_bind :
    (p.bind k w).1.Becomes env (p.bind k w).2 r v ↔
      (∃ q, p.Becomes env w q v ∧ q.Pending ∧ r = (q.bind k v).1) ∨
        ∃ a u, p.Ends env w a u ∧ (k a u).1.Becomes env (k a u).2 r v := by
  constructor
  · intro h
    induction p using Process.induct generalizing w with
    | done a =>
      rw [bind_done] at h
      exact Or.inr ⟨a, w, .done a w, h⟩
    | waiting on resume ih =>
      rw [bind_waiting] at h
      cases h with
      | same =>
        refine Or.inl ⟨_, .same _ w, pending_waiting, ?_⟩
        rw [bind_waiting]
      | looked act ended rest =>
        rcases ih _ rest with ⟨q, hq, hpending, hr⟩ | ⟨a, u, hends, hrest⟩
        · exact Or.inl ⟨q, .looked act ended hq, hpending, hr⟩
        · exact Or.inr ⟨a, u, .resumed act ended hends, hrest⟩
    | stuck =>
      rw [bind_stuck] at h
      cases h
      refine Or.inl ⟨_, .same _ w, pending_stuck, ?_⟩
      rw [bind_stuck]
  · rintro (⟨q, hq, hpending, rfl⟩ | ⟨a, u, hends, hrest⟩)
    · induction hq with
      | same p w =>
        -- A pending part does nothing to the world when what follows is put behind it.
        have hworld := snd_bind hpending k w
        generalize p.bind k w = b at hworld ⊢
        obtain ⟨rest, w'⟩ := b
        obtain rfl : w' = w := hworld
        exact .same rest w'
      | looked act ended _ ih =>
        rw [bind_waiting]
        exact .looked act ended (ih hpending)
    · induction hends with
      | done a w =>
        rw [bind_done]
        exact hrest
      | resumed act ended _ ih =>
        rw [bind_waiting]
        exact .looked act ended (ih hrest)

section Bounded

variable {b : Bounds} {p q : Process (Except CallError α)} {a : Except CallError α}

/-- Looks in worlds that break no bound see the bounded work as the work. -/
theorem Becomes.cutOff (h : p.Becomes (b.Within env) w q v) :
    (p.cutOff (fun v => (b.broken? v).map .error) b.wait).Becomes env w
      (q.cutOff (fun v => (b.broken? v).map .error) b.wait) v := by
  induction h with
  | same p w => exact .same _ w
  | looked act ended _ ih =>
    rw [cutOff_waiting]
    refine .looked act.1 (by rw [Wait.isOver_or, ended, Bool.or_true]) ?_
    simpa only [act.2, Option.map_none] using ih

/-- A bound that breaks wakes pending work and ends it. -/
theorem Pending.becomes_broken {e : CallError} (hp : p.Pending) (act : env w v)
    (hb : b.broken? v = some e) :
    (p.cutOff (fun v => (b.broken? v).map .error) b.wait).Becomes env w (.done (.error e)) v := by
  have hover : b.wait.isOver v = true := by
    rw [← b.isSome_broken?, hb, Option.isSome_some]
  cases p with
  | done a => exact (hp a rfl).elim
  | waiting on resume =>
    rw [cutOff_waiting]
    refine .looked act (by rw [Wait.isOver_or, hover, Bool.true_or]) ?_
    simp only [hb, Option.map_some]
    exact .same _ v
  | stuck =>
    rw [cutOff_stuck]
    refine .looked act hover ?_
    simp only [hb, Option.map_some]
    exact .same _ v

/-- Bounded work is what its work has become, still bounded, as long as no bound is broken; an act
of the environment that breaks one ends what is pending. -/
theorem becomes_cutOff :
    (p.cutOff (fun v => (b.broken? v).map .error) b.wait).Becomes env w q v ↔
      (∃ rest, p.Becomes (b.Within env) w rest v ∧
        q = rest.cutOff (fun v => (b.broken? v).map .error) b.wait) ∨
      ∃ rest u e, p.Becomes (b.Within env) w rest u ∧ rest.Pending ∧ env u v ∧
        b.broken? v = some e ∧ q = .done (.error e) := by
  constructor
  · intro h
    induction p using Process.induct generalizing w with
    | done a =>
      rw [cutOff_done] at h
      obtain ⟨rfl, rfl⟩ := becomes_of_done h
      exact Or.inl ⟨_, .same _ v, (cutOff_done _ _ a).symm⟩
    | waiting on resume ih =>
      rw [cutOff_waiting] at h
      cases h with
      | same => exact Or.inl ⟨_, .same _ _, (cutOff_waiting _ _ on resume).symm⟩
      | @looked _ _ _ u _ _ act ended rest =>
        have hbroken := b.isSome_broken? u
        cases hb : b.broken? u with
        | some e =>
          simp only [hb, Option.map_some] at rest
          obtain ⟨rfl, rfl⟩ := becomes_of_done rest
          exact Or.inr ⟨_, _, e, .same _ w, pending_waiting, act, hb, rfl⟩
        | none =>
          -- No bound woke this look, so it is one that the work itself waited for.
          rw [hb, Option.isSome_none] at hbroken
          rw [Wait.isOver_or, ← hbroken, Bool.false_or] at ended
          simp only [hb, Option.map_none] at rest
          rcases ih u rest with ⟨left, hleft, hq⟩ | ⟨left, u', e, hleft, hlast⟩
          · exact Or.inl ⟨left, .looked ⟨act, hb⟩ ended hleft, hq⟩
          · exact Or.inr ⟨left, u', e, .looked ⟨act, hb⟩ ended hleft, hlast⟩
    | stuck =>
      rw [cutOff_stuck] at h
      cases h with
      | same => exact Or.inl ⟨_, .same _ _, (cutOff_stuck _ _).symm⟩
      | @looked _ _ _ u _ _ act ended rest =>
        obtain ⟨e, hb⟩ : ∃ e, b.broken? u = some e :=
          Option.isSome_iff_exists.mp ((b.isSome_broken? u).trans ended)
        simp only [hb, Option.map_some] at rest
        obtain ⟨rfl, rfl⟩ := becomes_of_done rest
        exact Or.inr ⟨_, _, e, .same _ w, pending_stuck, act, hb, rfl⟩
  · rintro (⟨rest, hrest, rfl⟩ | ⟨rest, u, e, hrest, hpending, act, hb, rfl⟩)
    · exact hrest.cutOff
    · exact hrest.cutOff.trans (hpending.becomes_broken act hb)

/-- Bounded work ends as the work does within its bounds, or in the failure of a bound. -/
theorem ends_cutOff
    (h : (p.cutOff (fun v => (b.broken? v).map .error) b.wait).Ends env w a v) :
    p.Ends env w a v ∨ ∃ e, a = .error e ∧ b.broken? v = some e := by
  rcases becomes_cutOff.mp (becomes_done_iff.mpr h) with
    ⟨rest, hrest, hq⟩ | ⟨_, _, e, _, _, _, hb, hq⟩
  · rcases done_or_pending rest with ⟨a', rfl⟩ | hpending
    · rw [cutOff_done] at hq
      cases hq
      exact Or.inl ((becomes_done_iff.mp hrest).mono fun _ _ act => act.1)
    · exact absurd hq.symm (Bounds.pending_cutOff hpending a)
  · cases hq
    exact Or.inr ⟨e, rfl, hb⟩

/-- Bounds that are not broken at any look do not keep work from its end. -/
theorem Ends.cutOff (h : p.Ends env w a v) (hb : ∀ w v, env w v → b.broken? v = none) :
    (p.cutOff (fun v => (b.broken? v).map .error) b.wait).Ends env w a v := by
  have hwithin : p.Ends (b.Within env) w a v := h.mono fun _ _ act => ⟨act, hb _ _ act⟩
  have hdone := (becomes_done_iff.mpr hwithin).cutOff
  rw [cutOff_done] at hdone
  exact becomes_done_iff.mp hdone

end Bounded

end Process

namespace Future

variable {f : Future α} {k : α → Future β} {q : Process α} {r : Process β}

/-- Some looks at work, the first of them in `w`, leave `q` of it in a world. -/
def Becomes (env : Environment) (f : Future α) (w : World) (q : Process α) (v : World) : Prop :=
  (f w).1.Becomes env (f w).2 q v

theorem becomes_ready : (Future.ready a).Becomes env w q v ↔ q = .done a ∧ v = w := by
  constructor
  · exact Process.becomes_of_done
  · rintro ⟨rfl, rfl⟩
    exact .same _ v

/-- Only the first look tells two pieces of work apart. -/
theorem Becomes.of_eq {g : Future α} (h : f.Becomes env w q v) (he : f w = g u) :
    g.Becomes env u q v := by
  unfold Becomes at h ⊢
  rwa [he] at h

theorem becomes_bind :
    (Future.bind f k).Becomes env w r v ↔
      (∃ q, f.Becomes env w q v ∧ q.Pending ∧ r = (q.bind k v).1) ∨
        ∃ a u, f.Ends env w a u ∧ (k a).Becomes env u r v :=
  Process.becomes_bind

theorem Ends.bind {b : β} (h : f.Ends env w a u) (hk : (k a).Ends env u b v) :
    (Future.bind f k).Ends env w b v := by
  have hrest : (k a).Becomes env u (.done b) v := Process.becomes_done_iff.mpr hk
  exact Process.becomes_done_iff.mp (becomes_bind.mpr (Or.inr ⟨a, u, h, hrest⟩))

/-- However work is looked at, while between two looks the world moves by `R`, all of it together
moves the world by `R`. -/
def Keeps (R : Environment) (f : Future α) : Prop :=
  ∀ w q v, f.Becomes R w q v → R w v

section Keeping

variable (hrefl : ∀ w, R w w) (htrans : ∀ {u v w}, R u v → R v w → R u w)

include hrefl in
theorem keeps_ready (a : α) : (Future.ready a).Keeps R := by
  intro w q v h
  rw [(becomes_ready.mp h).2]
  exact hrefl w

theorem Keeps.of_ends (h : f.Keeps R) (hends : f.Ends R w a v) : R w v :=
  h w _ v (Process.becomes_done_iff.mpr hends)

include htrans in
theorem Keeps.bind (hf : f.Keeps R) (hk : ∀ a, (k a).Keeps R) : (Future.bind f k).Keeps R := by
  intro w r v h
  rcases becomes_bind.mp h with ⟨q, hq, -, -⟩ | ⟨a, u, hends, hrest⟩
  · exact hf w q v hq
  · exact htrans (hf.of_ends hends) (hk a u r v hrest)

include hrefl in
theorem sleepUntil_keeps (t : Instant) : (Future.sleepUntil t).Keeps R := by
  intro w q v h
  unfold Becomes Future.sleepUntil at h
  split at h
  · rw [(Process.becomes_of_done h).2]
    exact hrefl w
  · cases h with
    | same => exact hrefl w
    | looked act ended rest =>
      rw [(Process.becomes_of_done rest).2]
      exact act

include hrefl htrans in
theorem Keeps.limit {f : Future (Except CallError α)} (hf : f.Keeps R) (b : Bounds) :
    (b.limit f).Keeps R := by
  intro w q v h
  cases hb : b.broken? w with
  | some e =>
    unfold Becomes at h
    rw [Bounds.limit_of_broken hb] at h
    rw [(Process.becomes_of_done h).2]
    exact hrefl w
  | none =>
    unfold Becomes at h
    rw [Bounds.limit_of_unbroken hb] at h
    rcases Process.becomes_cutOff.mp h with ⟨rest, hrest, -⟩ | ⟨rest, u, e, hrest, -, act, -, -⟩
    · exact hf w rest v (hrest.mono fun _ _ act => act.1)
    · exact htrans (hf w rest u (hrest.mono fun _ _ act => act.1)) act

end Keeping

end Future

end RpcPolicy
