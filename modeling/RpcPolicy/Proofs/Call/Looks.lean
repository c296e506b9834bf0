import RpcPolicy.Call.Process
/-! Looks at work in progress, in any worlds. Main statements: what is left of bounded and composed
work is the bounded and composed rest. -/

namespace RpcPolicy

variable {α β : Type}

namespace Process

/-- A process that has not finished. -/
def Pending (p : Process α) : Prop := ∀ a, p ≠ .done a

theorem pending_waiting {on : Wait} {resume : World → Process α × World} :
    (Process.waiting on resume).Pending := by
  intro a h
  cases h

theorem pending_stuck : (Process.stuck : Process α).Pending := by
  intro a h
  cases h

theorem done_or_pending (p : Process α) : (∃ a, p = .done a) ∨ p.Pending := by
  cases p with
  | done a => exact Or.inl ⟨a, rfl⟩
  | waiting on resume => exact Or.inr pending_waiting
  | stuck => exact Or.inr pending_stuck

/-- Looking again at work whose first part is pending looks at that part. -/
theorem poll_bind {p : Process α} (hp : p.Pending) (k : α → Future β) (w : World) :
    (p.bind k w).1.poll = Future.bind p.poll k := by
  funext v
  cases p with
  | done a => exact (hp a rfl).elim
  | waiting on resume =>
    simp only [bind_waiting, poll, Future.bind]
    split
    · rfl
    · rw [bind_waiting]
  | stuck =>
    simp only [bind_stuck, poll, Future.bind]

theorem pending_bind {p : Process α} (hp : p.Pending) (k : α → Future β) (w : World) :
    (p.bind k w).1.Pending := by
  cases p with
  | done a => exact (hp a rfl).elim
  | waiting on resume =>
    rw [bind_waiting]
    exact pending_waiting
  | stuck =>
    rw [bind_stuck]
    exact pending_stuck

theorem snd_bind {p : Process α} (hp : p.Pending) (k : α → Future β) (w : World) :
    (p.bind k w).2 = w := by
  cases p with
  | done a => exact (hp a rfl).elim
  | waiting on resume => rw [bind_waiting]
  | stuck => rw [bind_stuck]

end Process

namespace Bounds

variable {b : Bounds} {w : World}

theorem broken?_eq_none :
    b.broken? w = none ↔ w.isCanceled b.token = false ∧ w.isPast b.deadline = false := by
  unfold broken?
  cases w.isCanceled b.token <;> cases w.isPast b.deadline <;> simp

/-- Cancellation comes before the deadline. -/
theorem broken?_of_canceled (h : w.isCanceled b.token = true) :
    b.broken? w = some (.canceled b.canceled) := by
  rw [broken?, if_pos h]

theorem broken?_of_past (h : w.isCanceled b.token = false) (hd : w.isPast b.deadline = true) :
    b.broken? w = some (.deadlineExceeded b.expired) := by
  rw [broken?, h, if_neg Bool.false_ne_true, if_pos hd]

variable {f : Future (Except CallError α)}

theorem limit_of_broken {e : CallError} (h : b.broken? w = some e) :
    b.limit f w = (.done (.error e), w) := by
  simp only [limit, Future.cutOff, h, Option.map_some]

theorem limit_of_unbroken (h : b.broken? w = none) :
    b.limit f w =
      ((f w).1.cutOff (fun v => (b.broken? v).map .error) b.wait, (f w).2) := by
  simp only [limit, Future.cutOff, h, Option.map_none]

theorem pending_cutOff {stop : World → Option α} {wake : Wait} {p : Process α} (hp : p.Pending) :
    (p.cutOff stop wake).Pending := by
  cases p with
  | done a => exact (hp a rfl).elim
  | waiting on resume =>
    rw [Process.cutOff_waiting]
    exact Process.pending_waiting
  | stuck =>
    rw [Process.cutOff_stuck]
    exact Process.pending_waiting

/-- Looking again at bounded work looks at the bounds, then at the work. -/
theorem poll_cutOff {p : Process (Except CallError α)} (hp : p.Pending) :
    (p.cutOff (fun v => (b.broken? v).map .error) b.wait).poll = b.limit p.poll := by
  funext w
  have hb := b.isSome_broken? w
  cases p with
  | done a => exact (hp a rfl).elim
  | waiting on resume =>
    rw [Process.cutOff_waiting]
    cases h : b.broken? w with
    | some e =>
      rw [h, Option.isSome_some] at hb
      simp [limit_of_broken h, Process.poll, Wait.isOver_or, ← hb, h]
    | none =>
      rw [h, Option.isSome_none] at hb
      rw [limit_of_unbroken h]
      simp only [Process.poll, Wait.isOver_or, ← hb, Bool.false_or, h, Option.map_none]
      split
      · rfl
      · rw [Process.cutOff_waiting]
  | stuck =>
    rw [Process.cutOff_stuck]
    cases h : b.broken? w with
    | some e =>
      rw [h, Option.isSome_some] at hb
      simp [limit_of_broken h, Process.poll, ← hb, h]
    | none =>
      rw [h, Option.isSome_none] at hb
      rw [limit_of_unbroken h]
      simp [Process.poll, ← hb]

end Bounds

namespace Future

/-- Looking at some work in `w` does not finish it: `g` is left, and the world is `v`. -/
structure Leaves (f : Future α) (w : World) (g : Future α) (v : World) : Prop where
  pending : (f w).1.Pending
  rest : (f w).1.poll = g
  world : (f w).2 = v

variable {f g : Future α} {v w : World}

/-- A look finishes work or leaves some of it. -/
theorem gives_or_leaves (f : Future α) (w : World) :
    (∃ a, f w = (.done a, (f w).2)) ∨ f.Leaves w (f w).1.poll (f w).2 := by
  rcases (f w).1.done_or_pending with ⟨a, ha⟩ | hp
  · exact Or.inl ⟨a, Prod.ext ha rfl⟩
  · exact Or.inr ⟨hp, rfl, rfl⟩

theorem bind_of_gives {a : α} (h : f w = (.done a, v)) (k : α → Future β) :
    Future.bind f k w = k a v := by
  unfold Future.bind
  rw [h, Process.bind_done]

theorem Leaves.bind (h : f.Leaves w g v) (k : α → Future β) :
    (Future.bind f k).Leaves w (Future.bind g k) v := by
  refine ⟨Process.pending_bind h.pending k _, ?_, ?_⟩
  · rw [← h.rest]
    exact Process.poll_bind h.pending k _
  · rw [← h.world]
    exact Process.snd_bind h.pending k _

/-- Bounded work that is left is the bounded rest. -/
theorem Leaves.limit {f g : Future (Except CallError α)} {b : Bounds} (h : f.Leaves w g v)
    (hb : b.broken? w = none) : (b.limit f).Leaves w (b.limit g) v := by
  rw [← h.rest, ← h.world]
  have hlook := Bounds.limit_of_unbroken (f := f) hb
  refine ⟨?_, ?_, ?_⟩
  · rw [hlook]
    exact Bounds.pending_cutOff h.pending
  · rw [hlook]
    exact Bounds.poll_cutOff h.pending
  · rw [hlook]

/-- What may be left of work that was first looked at in `w`, after further looks in any worlds. -/
inductive Rest (f : Future α) (w : World) : Future α → Prop
  | first : Rest f w (f w).1.poll
  | look {g : Future α} (v : World) (before : Rest f w g) : Rest f w (g v).1.poll

end Future

end RpcPolicy
