import RpcPolicy.Proofs.Pipeline.Acts
import RpcPolicy.Rehearsal.Layer
/-! One attempt of a call: the limiter, the layers of the caller and the transport. Main statement:
an attempt passes all of them in order, or is turned away before the first. -/

namespace RpcPolicy.Pipeline

/-- A layer that leaves one note and makes the next call once, with a request that may be sent
too. It may wait before and after that, and answer something else. -/
structure Recorder (token : Token) where
  interceptor : Interceptor
  text : String
  /-- What it makes of the outcome of the next call. -/
  reply : Outcome → Outcome
  once : ∀ (next : Unary) (request : Request) (w : World) (R : World → Outcome → World → Prop)
    (S : World → Prop), Fits request → w.isCanceled token = false →
    (∀ v y u, R v y u → u.isCanceled token = false) →
    (∀ sent v, Fits sent → Noted text w v →
      (next.deferred sent).Completes (Calm token) v (R v) S) →
    ((interceptor.wrapUnary next).deferred request).Completes (Calm token) w
      (fun x u => ∃ v y u', Noted text w v ∧ R v y u' ∧ Passes u' u ∧ x = reply y) S

namespace Recorder

/-- The layer that leaves a note as soon as the call is made. -/
def note (token : Token) (text : String) : Recorder token where
  interceptor := .ofFunction ((Action.note text).apply 0)
  text := text
  reply := id
  once next request w R S hf _ _ hnext := by
    have hnoted : Noted text w (w.record (.note text)) := ⟨w, .refl _, .refl _⟩
    refine Future.Completes.of_eq ((hnext request _ hf hnoted).mono ?_ fun _ hs => hs) rfl
    intro x u hx
    exact ⟨_, x, u, hnoted, hx, .refl u, rfl⟩

end Recorder

variable {token : Token} {limiter : Option Limiter} {l : Limiter} {request : Request}
  {v w : World} {S : World → Prop}

/-- The notes of some layers. -/
def notes (rs : List (Recorder token)) : List Act := rs.map fun r => .note r.text

/-- What some layers make of an outcome, the innermost first. -/
def replies (rs : List (Recorder token)) (x : Outcome) : Outcome :=
  rs.foldr (fun r x => r.reply x) x

/-- Some layers as a caller gives them. -/
def callers (rs : List (Recorder token)) : List Interceptor :=
  rs.map Recorder.interceptor

/-! ### The caller's layers -/

/-- The layers may wait when the transport has answered. -/
theorem Does.wait {outcome : Outcome} {u : World} (h : Does token limiter (.transport outcome) w u)
    (hv : Passes u v) : Does token limiter (.transport outcome) w v := by
  obtain ⟨request, answer, t, hf, hends, hx, hafter⟩ := h
  exact ⟨request, answer, t, hf, hends, hx, hafter.trans hv⟩

/-- One attempt of a call: it passed everything and got an answer from the transport, or it was
turned away at once. -/
inductive Block where
  | full (answer : Outcome)
  | empty (error : CallError)

namespace Block

/-- The acts of an attempt; a limited one begins with taking a token. -/
def acts (limited : Bool) (rs : List (Recorder token)) : Block → List Act
  | full answer => (if limited then [.admitted] else []) ++ notes rs ++ [.transport answer]
  | empty _ => [.refused]

/-- What an attempt ended in. -/
def outcome (rs : List (Recorder token)) : Block → Outcome
  | full answer => replies rs answer
  | empty error => .error error

/-- Only a limiter turns attempts away. -/
def Allowed (limiter : Option Limiter) : Block → Prop
  | full _ => True
  | empty error => ∃ l, limiter = some l ∧ error = l.rejection

end Block

/-- An attempt: what the retries make again. -/
def attempt (limiter : Option Limiter) (rs : List (Recorder token)) : Unary :=
  (Chain.mk ((limiter.map Limiter.interceptor).toList ++ callers rs)).wrapUnary
    Transport.scripted.innermostUnary

theorem deferred_admitted {next : Unary} (hl : l.isUnlimited = false)
    (ha : w.acquire l.place = (true, v)) :
    (l.wrapUnary next).deferred request w = next.deferred request v := by
  unfold Unary.deferred
  rw [Limiter.wrapUnary_admitted hl ha]

theorem deferred_refused {next : Unary} (hl : l.isUnlimited = false)
    (ha : w.acquire l.place = (false, v)) :
    (l.wrapUnary next).deferred request w =
      Future.ready (.error l.rejection) (v.record (l.rejectionEvent request.procedure)) := by
  unfold Unary.deferred
  rw [Limiter.wrapUnary_refused hl ha]

end RpcPolicy.Pipeline
