import RpcPolicy.Call.Retry
import RpcPolicy.Call.Transport
import RpcPolicy.Proofs.Call.Looks
import RpcPolicy.Proofs.Call.Runs
/-! What looks at work make of the world. Main statement: however often and in whatever worlds
composed work is looked at, each look moves the world only as the parts do. -/

namespace RpcPolicy

/-- A relation of worlds that steps in a row have if each one has it, and that every step has which
leaves all buckets as they are. -/
structure Flow (R : Environment) : Prop where
  idle : ∀ {w v : World}, v.buckets = w.buckets → R w v
  trans : ∀ {u v w : World}, R u v → R v w → R u w

variable {α β : Type} {R S : Environment}

theorem Flow.refl (hR : Flow R) (w : World) : R w w := hR.idle rfl

namespace Process

/-- Each look at a process moves the world by `R`, and so does each look at what it leaves. -/
inductive Moves (R : Environment) : Process α → Prop
  | done (a : α) : Moves R (.done a)
  | waiting {on : Wait} {resume : World → Process α × World} (look : ∀ w, R w (resume w).2)
      (rest : ∀ w, Moves R (resume w).1) : Moves R (.waiting on resume)
  | stuck : Moves R .stuck

end Process

/-- The first look at some work moves the world by `R`, and so does each later one. -/
def Future.Moves (R : Environment) (f : Future α) : Prop :=
  ∀ w, R w (f w).2 ∧ (f w).1.Moves R

/-- Making a call moves the world by `R`, and so does each look at it. -/
def Unary.Moves (R : Environment) (next : Unary) : Prop :=
  ∀ request w, R w (next request w).2 ∧ (next request w).1.Moves R

namespace Process.Moves

variable {p : Process α} {k : α → Future β} {stop : World → Option α} {wake : Wait}

theorem mono (h : p.Moves R) (hS : ∀ w v, R w v → S w v) : p.Moves S := by
  induction h with
  | done a => exact .done a
  | waiting look _ ih => exact .waiting (fun w => hS _ _ (look w)) ih
  | stuck => exact .stuck

theorem bind (hR : Flow R) (hp : p.Moves R) (hk : ∀ a, (k a).Moves R) :
    Future.Moves R (p.bind k) := by
  induction hp with
  | done a =>
    rw [bind_done]
    exact hk a
  | waiting look _ ih =>
    intro w
    rw [bind_waiting]
    refine ⟨hR.refl w, .waiting (fun v => ?_) fun v => (ih v _).2⟩
    exact hR.trans (look v) (ih v _).1
  | stuck =>
    intro w
    rw [bind_stuck]
    exact ⟨hR.refl w, .stuck⟩

theorem cutOff (hR : Flow R) (hp : p.Moves R) : (p.cutOff stop wake).Moves R := by
  induction hp with
  | done a =>
    rw [cutOff_done]
    exact .done a
  | waiting look _ ih =>
    rw [cutOff_waiting]
    refine .waiting (fun w => ?_) fun w => ?_
    · split
      · exact hR.refl w
      · exact look w
    · split
      · exact .done _
      · exact ih w
  | stuck =>
    rw [cutOff_stuck]
    refine .waiting (fun w => ?_) fun w => ?_
    · split
      · exact hR.refl w
      · exact hR.refl w
    · split
      · exact .done _
      · exact .stuck

theorem poll (hR : Flow R) (hp : p.Moves R) : p.poll.Moves R := by
  intro w
  cases hp with
  | done a => exact ⟨hR.refl w, .done a⟩
  | waiting look rest =>
    unfold Process.poll
    dsimp only
    split
    · exact ⟨look w, rest w⟩
    · exact ⟨hR.refl w, .waiting look rest⟩
  | stuck => exact ⟨hR.refl w, .stuck⟩

end Process.Moves

namespace Future.Moves

variable {f g : Future α} {k : α → Future β} {w : World}

theorem mono (h : f.Moves R) (hS : ∀ w v, R w v → S w v) : f.Moves S :=
  fun w => ⟨hS _ _ (h w).1, (h w).2.mono hS⟩

theorem ready (hR : Flow R) (a : α) : (Future.ready a).Moves R :=
  fun w => ⟨hR.refl w, .done a⟩

theorem never (hR : Flow R) : (Future.never : Future α).Moves R :=
  fun w => ⟨hR.refl w, .stuck⟩

theorem bind (hR : Flow R) (hf : f.Moves R) (hk : ∀ a, (k a).Moves R) :
    (Future.bind f k).Moves R := by
  intro w
  have hrest := (hf w).2.bind hR hk (f w).2
  exact ⟨hR.trans (hf w).1 hrest.1, hrest.2⟩

theorem sleepUntil (hR : Flow R) (t : Instant) : (Future.sleepUntil t).Moves R := by
  intro w
  unfold Future.sleepUntil
  split
  · exact ⟨hR.refl w, .done ()⟩
  · exact ⟨hR.refl w, .waiting (fun v => hR.refl v) fun _ => .done ()⟩

theorem limit {f : Future (Except CallError α)} (hR : Flow R) (hf : f.Moves R) (b : Bounds) :
    (b.limit f).Moves R := by
  intro w
  cases hb : b.broken? w with
  | some e =>
    rw [Bounds.limit_of_broken hb]
    exact ⟨hR.refl w, .done _⟩
  | none =>
    rw [Bounds.limit_of_unbroken hb]
    exact ⟨(hf w).1, (hf w).2.cutOff hR⟩

/-- Work that is left moves the world as the whole does. -/
theorem rest (hR : Flow R) (hf : (f w).1.Moves R) (hg : Future.Rest f w g) : g.Moves R := by
  induction hg with
  | first => exact hf.poll hR
  | look v _ ih => exact (ih v).2.poll hR

end Future.Moves

/-! ### Calls -/

variable {next : Unary} {request : Request}

namespace Unary.Moves

theorem deferred (hR : Flow R) (h : next.Moves R) (request : Request) :
    (next.deferred request).Moves R := by
  intro w
  have hlook := (h request w).2 (next request w).2
  exact ⟨hR.trans (h request w).1 hlook.1, hlook.2⟩

/-- The innermost call does nothing before it is looked at, and then it is one of the transport. -/
theorem innermost (hR : Flow R) {t : Transport} (ht : t.unary.Moves R) :
    t.innermostUnary.Moves R := by
  intro request w
  refine ⟨hR.refl w, fun v => ?_⟩
  unfold Transport.innermostUnary
  dsimp only
  split
  · exact ⟨hR.refl v, .done _⟩
  · exact (ht.deferred hR _).bind hR (fun _ => .ready hR _) v

end Unary.Moves

namespace Retry

theorem pause_moves (hR : Flow R) (request : Request) (delay : Duration) :
    (pause Sleep.timer request delay).Moves R := by
  intro w
  let slept : Unit → Future (Except CallError Unit) := fun _ => .ready (.ok ())
  have hnap := Future.Moves.sleepUntil hR (w.clock.after delay)
  have hpause := hnap.bind (k := slept) hR fun _ => .ready hR _
  exact hpause.limit hR (backoffBounds request) w

theorem afterAttempt_moves (hR : Flow R) {again : Cursor → Future Outcome}
    (hagain : ∀ cursor, (again cursor).Moves R) (made : Nat) (cursor : Cursor) (x : Outcome) :
    (afterAttempt Sleep.timer request made cursor again x).Moves R := by
  cases x with
  | ok response => exact .ready hR _
  | error e =>
    unfold afterAttempt
    dsimp only
    split
    · split
      · exact fun w => ⟨hR.idle rfl, .done _⟩
      · intro w
        have hafter : ∀ x, (afterPause (again cursor.step.2) x).Moves R := by
          intro x
          cases x with
          | ok _ => exact hagain _
          | error e => exact .ready hR _
        have htold : R w (w.record (backoffEvent request e made cursor.step.1.delay)) :=
          hR.idle rfl
        have hwait := (pause_moves hR request cursor.step.1.delay).bind hR hafter
          (w.record (backoffEvent request e made cursor.step.1.delay))
        exact ⟨hR.trans htold hwait.1, hwait.2⟩
    · exact .ready hR _

/-- The attempts of a call, and the backoffs between them, move the world as one attempt does. -/
theorem attempts_moves (hR : Flow R) (hnext : (next.deferred request).Moves R)
    (follow made : Nat) (cursor : Cursor) :
    (attempts next Sleep.timer request follow made cursor).Moves R := by
  induction follow generalizing made cursor with
  | zero => exact .never hR
  | succ follow ih =>
    intro w
    unfold attempts
    dsimp only
    split
    · exact ⟨hR.refl w, .done _⟩
    · exact hnext.bind hR (fun x => afterAttempt_moves hR (fun cursor => ih _ cursor) _ _ x) w

theorem wrapUnary_moves (hR : Flow R) {r : Retry} (hr : r.sleep = Sleep.timer)
    (hnext : next.Moves R) : (r.wrapUnary next).Moves R := by
  intro request w
  refine ⟨?_, ?_⟩
  · unfold wrapUnary cursor
    dsimp only
    split
    · exact hR.idle rfl
    · exact hR.idle rfl
  · unfold wrapUnary
    dsimp only
    rw [hr]
    exact attempts_moves hR (hnext.deferred hR request) _ _ _

end Retry

end RpcPolicy
