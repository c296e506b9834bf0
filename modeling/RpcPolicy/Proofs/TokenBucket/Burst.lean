import Mathlib.Algebra.Order.Floor.Semifield
import RpcPolicy.Call.Limiter
import RpcPolicy.Proofs.Call.Runs
import RpcPolicy.Proofs.Number.Whole
import RpcPolicy.Proofs.TokenBucket.Sound
/-! Full buckets while the clock stands still. Main statement: a bucket admits as many attempts as
its capacity says and none after them, whoever makes them and however often it is looked at. -/

namespace RpcPolicy

open Binary64

theorem Instant.since_self (t : Instant) : t.since t = .zero := by
  unfold Instant.since
  rw [Nat.sub_self]
  rfl

/-- No time at all is zero seconds. -/
theorem Duration.toBinary64_zero : zero.toBinary64 = 0 := by
  have hne : nanosPerSecond * unitsPerOne ≠ 0 := by decide +kernel
  have hnanos : nanosPerSecond < 2 ^ 53 := by decide
  have hpart : Binary64.ofNat 0 / Binary64.ofNat nanosPerSecond = 0 := by
    have hexact := nearest_of_representable false representable_zero (Nat.pos_of_ne_zero hne)
    rw [Nat.zero_mul] at hexact
    rw [ofNat_eq hnanos, ofNat_eq (by decide : 0 < 2 ^ 53), div_finite hne, Nat.zero_mul,
      Nat.zero_mul, hexact, zero_eq]
  have hsum : zero.toBinary64 =
      Binary64.ofNat 0 + Binary64.ofNat 0 / Binary64.ofNat nanosPerSecond := rfl
  rw [hsum, hpart]
  exact add_zero_ofNat (Nat.zero_le _)

namespace TokenBucket

/-- The capacity of a rate and a burst as a whole number. -/
def wholeCapacity (rate : Binary64) (burst : UInt32) : Nat :=
  if burst = 0 then max 1 ⌊rate.value⌋₊ else burst.toNat

/-- A bucket with a whole number of tokens, last refilled at an instant. -/
def counted (rate : Binary64) (capacity tokens : Nat) (now : Instant) : TokenBucket :=
  ⟨rate, .ofNat capacity, .ofNat tokens, now⟩

/-- A finite number above zero. -/
def FiniteRate (rate : Binary64) : Prop :=
  rate.isFinite = true ∧ (0 : Binary64).lt rate = true

variable {rate : Binary64} {burst : UInt32} {c n : Nat} {now : Instant}

/-! ### Whole tokens -/

theorem FiniteRate.eq_finite (h : FiniteRate rate) : ∃ m hm, rate = finite false m hm := by
  rcases (nonneg_rate (isUnlimitedRate_of_pos h.2)).cases with rfl | hrate
  · exact absurd h.1 Bool.false_ne_true
  · exact hrate

theorem FiniteRate.limited (h : FiniteRate rate) :
    (counted rate c n now).isUnlimited = false :=
  isUnlimitedRate_of_pos h.2

theorem full_eq_counted (h : FiniteRate rate) (burst : UInt32) (now : Instant) :
    full rate burst now =
      counted rate (wholeCapacity rate burst) (wholeCapacity rate burst) now := by
  have hcapacity : capacityOf rate burst = .ofNat (wholeCapacity rate burst) := by
    unfold capacityOf wholeCapacity
    split
    · obtain ⟨m, hm, rfl⟩ := h.eq_finite
      rw [floor_finite, ofNat_max_one, value_finite, Nat.floor_div_eq_div]
    · rfl
  rw [full, hcapacity]
  rfl

theorem refill_counted (h : FiniteRate rate) (hn : n ≤ c) (hc : c ≤ 2 ^ 53) :
    (counted rate c n now).refill now = counted rate c n now := by
  have htokens : ((Binary64.ofNat n + (now.since now).toBinary64 * rate).min (.ofNat c)) =
      .ofNat n := by
    obtain ⟨m, hm, rfl⟩ := h.eq_finite
    rw [Instant.since_self, Duration.toBinary64_zero, zero_mul_finite,
      add_zero_ofNat (hn.trans hc), ofNat_min hn hc]
  unfold refill counted
  dsimp only
  rw [htokens]

/-- An attempt takes a token if there is one. -/
theorem tryAcquire_counted (h : FiniteRate rate) (hn : n ≤ c) (hc : c ≤ 2 ^ 53) :
    (counted rate c n now).tryAcquire now = (decide (0 < n), counted rate c (n - 1) now) := by
  have hrefill : (counted rate c n now).refill now = counted rate c n now :=
    refill_counted h hn hc
  cases n with
  | zero =>
    rw [tryAcquire_of_not_le h.limited, hrefill]
    · rfl
    · rw [hrefill]
      exact not_one_le_zero
  | succ n =>
    rw [tryAcquire_of_le h.limited, hrefill]
    · have hsub : (counted rate c (n + 1) now).tokens - 1 = .ofNat n :=
        ofNat_sub_one (hn.trans hc)
      rw [hsub]
      rfl
    · rw [hrefill]
      exact one_le_ofNat (Nat.succ_pos n)

theorem available_counted (h : FiniteRate rate) (hn : n ≤ c) (hc : c ≤ 2 ^ 53) :
    (counted rate c n now).available now = (.ofNat n, counted rate c n now) := by
  rw [available_of_limited h.limited, refill_counted h hn hc]
  rfl

end TokenBucket

namespace Burst

/-- What a bucket is asked, and what it answers. -/
inductive Act where
  | tried (admitted : Bool)
  | looked (tokens : Binary64)

namespace Act

/-- Whether an attempt was admitted. -/
def admitted? : Act → Option Bool
  | tried admitted => some admitted
  | looked _ => none

/-- How many tokens an act takes. -/
def taken : Act → Nat
  | tried admitted => admitted.toNat
  | looked _ => 0

end Act

/-- Somebody who has the place of a bucket asks it, itself or before an attempt. -/
def Does (place : Nat) : Act → Environment
  | .tried admitted => fun w v => w.acquire place = (admitted, v)
  | .looked tokens => fun w v => w.available place = (some tokens, v)

/-- The clock stands still and a bucket is left alone; anything else may happen. -/
def Rests (place : Nat) : Environment := fun w v =>
  v.clock = w.clock ∧ v.buckets[place]? = w.buckets[place]?

/-- Whatever goes on while the clock stands still, seen from one bucket. -/
abbrev History (place : Nat) : List Act → World → World → Prop :=
  Trace (Rests place) (Does place)

/-- What became of the attempts. -/
def tries (acts : List Act) : List Bool := acts.filterMap Act.admitted?

/-- How many attempts were admitted. -/
def successes (acts : List Act) : Nat := (acts.map Act.taken).sum

/-- The first `n` attempts are admitted and no others, and each look sees what is left. -/
structure Exact (n : Nat) (acts : List Act) : Prop where
  tries : tries acts = (List.range (tries acts).length).map fun i => decide (i < n)
  looks : ∀ before tokens after, acts = before ++ .looked tokens :: after →
    tokens = .ofNat (n - successes before) ∧ successes before ≤ n
  bounded : successes acts ≤ n

variable {rate : Binary64} {burst : UInt32} {c n place : Nat} {a : Act} {acts : List Act}
  {w v : World}

/-! ### One act -/

/-- A bucket at a place holds a whole number of tokens and has been refilled up to now. -/
def Left (rate : Binary64) (c place n : Nat) (w : World) : Prop :=
  w.buckets[place]? = some (.counted rate c n w.clock)

theorem Left.rests (h : Left rate c place n w) (hv : Rests place w v) :
    Left rate c place n v := by
  unfold Left
  rw [hv.1, hv.2]
  exact h

theorem Left.tried {admitted : Bool} (h : Left rate c place n w)
    (hrate : TokenBucket.FiniteRate rate) (hn : n ≤ c) (hc : c ≤ 2 ^ 53)
    (hv : w.acquire place = (admitted, v)) :
    admitted = decide (0 < n) ∧ Left rate c place (n - 1) v := by
  have hplace := (List.getElem?_eq_some_iff.mp h).1
  rw [World.acquire, h] at hv
  dsimp only at hv
  rw [TokenBucket.tryAcquire_counted hrate hn hc] at hv
  cases hv
  exact ⟨rfl, List.getElem?_set_self hplace⟩

theorem Left.looked {tokens : Binary64} (h : Left rate c place n w)
    (hrate : TokenBucket.FiniteRate rate) (hn : n ≤ c) (hc : c ≤ 2 ^ 53)
    (hv : w.available place = (some tokens, v)) :
    tokens = .ofNat n ∧ Left rate c place n v := by
  have hplace := (List.getElem?_eq_some_iff.mp h).1
  rw [World.available, h] at hv
  dsimp only at hv
  rw [TokenBucket.available_counted hrate hn hc] at hv
  cases hv
  exact ⟨rfl, List.getElem?_set_self hplace⟩

/-! ### Many acts -/

theorem successes_tried (admitted : Bool) (acts : List Act) :
    successes (.tried admitted :: acts) = admitted.toNat + successes acts := rfl

theorem successes_looked (tokens : Binary64) (acts : List Act) :
    successes (.looked tokens :: acts) = successes acts := Nat.zero_add _

/-- An attempt takes the one token that it needs, or there is none. -/
theorem toNat_add_pred (n : Nat) : (decide (0 < n)).toNat + (n - 1) = n := by
  cases n with
  | zero => rfl
  | succ n => exact Nat.add_comm 1 n

theorem sub_successes_tried (n : Nat) (acts : List Act) :
    n - successes (.tried (decide (0 < n)) :: acts) = n - 1 - successes acts := by
  have hcount := toNat_add_pred n
  rw [successes_tried]
  omega

theorem exact_nil (n : Nat) : Exact n [] where
  tries := rfl
  looks before _ _ h := by cases before <;> cases h
  bounded := Nat.zero_le n

theorem Exact.cons_tried (h : Exact (n - 1) acts) : Exact n (.tried (decide (0 < n)) :: acts) := by
  have hcount := toNat_add_pred n
  refine ⟨?tries, ?looks, ?bounded⟩
  case tries =>
    have hcons : Burst.tries (.tried (decide (0 < n)) :: acts) =
        decide (0 < n) :: Burst.tries acts := rfl
    have hshift : (fun i => decide (i < n - 1)) = (fun i => decide (i < n)) ∘ Nat.succ := by
      funext i
      exact decide_eq_decide.mpr Nat.lt_sub_iff_add_lt
    rw [hcons, List.length_cons, List.range_succ_eq_map, List.map_cons, List.map_map, ← hshift,
      ← h.tries]
  case looks =>
    intro before tokens after heq
    cases before with
    | nil => cases heq
    | cons a before =>
      obtain ⟨rfl, rest⟩ := List.cons.inj heq
      obtain ⟨hlook, hle⟩ := h.looks before tokens after rest
      rw [sub_successes_tried, successes_tried]
      exact ⟨hlook, by omega⟩
  case bounded =>
    have hle := h.bounded
    rw [successes_tried]
    omega

theorem Exact.cons_looked (h : Exact n acts) : Exact n (.looked (.ofNat n) :: acts) := by
  refine ⟨h.tries, ?looks, ?bounded⟩
  case looks =>
    intro before tokens after heq
    cases before with
    | nil =>
      cases heq
      exact ⟨rfl, Nat.zero_le n⟩
    | cons a before =>
      obtain ⟨rfl, rest⟩ := List.cons.inj heq
      rw [successes_looked]
      exact h.looks before tokens after rest
  case bounded =>
    rw [successes_looked]
    exact h.bounded

/-- From `n` tokens on the acts are those of a count that goes down to nothing. -/
theorem exact_of_history (hrate : TokenBucket.FiniteRate rate) (hc : c ≤ 2 ^ 53)
    (h : History place acts w v) (hn : n ≤ c) (hw : Left rate c place n w) :
    Exact n acts ∧ Left rate c place (n - successes acts) v := by
  induction h generalizing n with
  | refl => exact ⟨exact_nil n, hw⟩
  | quiet step _ ih => exact ih hn (hw.rests step)
  | @act a acts w u v step _ ih =>
    cases a with
    | tried admitted =>
      obtain ⟨rfl, hu⟩ := hw.tried hrate hn hc step
      obtain ⟨hexact, hv⟩ := ih (Nat.le_trans (Nat.sub_le n 1) hn) hu
      rw [sub_successes_tried]
      exact ⟨hexact.cons_tried, hv⟩
    | looked tokens =>
      obtain ⟨rfl, hu⟩ := hw.looked hrate hn hc step
      obtain ⟨hexact, hv⟩ := ih hn hu
      rw [successes_looked]
      exact ⟨hexact.cons_looked, hv⟩

/-! ### The guarantee -/

/-- While the clock stands still, a fresh bucket admits the first attempts up to its capacity and no
later ones, and the wrapped call is made once for each that is admitted. -/
theorem admits_exactly_capacity (rate : Binary64) (burst : UInt32) (place : Nat) {acts : List Act}
    {w v : World} (hfinite : rate.isFinite = true) (hpos : (0 : Binary64).lt rate = true)
    (hsmall : TokenBucket.wholeCapacity rate burst ≤ 2 ^ 53)
    (hfresh : w.buckets[place]? = some (.full rate burst w.clock))
    (h : History place acts w v) :
    let c := TokenBucket.wholeCapacity rate burst
    tries acts = (List.range (tries acts).length).map (fun i => decide (i < c)) ∧
    (∀ before tokens after, acts = before ++ .looked tokens :: after →
      tokens = .ofNat (c - successes before) ∧
        tokens.value = (c : ℚ) - (successes before : ℚ)) ∧
    ∀ l : Limiter, l.place = place → l.rate = rate → ∀ (next : Unary) (request : Request),
      (successes acts < c → ∃ u, Does place (.tried true) v u ∧
        l.wrapUnary next request v = next request u) ∧
      (c ≤ successes acts → ∃ u message, Does place (.tried false) v u ∧
        l.wrapUnary next request v =
          (.ready (.error (.rateLimited message)),
            u.record (l.rejectionEvent request.procedure))) := by
  intro c
  have hrate : TokenBucket.FiniteRate rate := ⟨hfinite, hpos⟩
  have hw : Left rate c place c w := by
    rw [TokenBucket.full_eq_counted hrate] at hfresh
    exact hfresh
  obtain ⟨hexact, hv⟩ := exact_of_history hrate hsmall h (Nat.le_refl c) hw
  refine ⟨hexact.tries, ?looks, ?calls⟩
  case looks =>
    intro before tokens after heq
    obtain ⟨rfl, hle⟩ := hexact.looks before tokens after heq
    refine ⟨rfl, ?_⟩
    rw [value_ofNat (Nat.le_trans (Nat.sub_le c _) hsmall), Nat.cast_sub hle]
  case calls =>
    rintro l rfl rfl next request
    have hlimited : l.isUnlimited = false := TokenBucket.isUnlimitedRate_of_pos hpos
    have hasked : v.acquire l.place = ((v.acquire l.place).1, (v.acquire l.place).2) := rfl
    obtain ⟨hadmitted, -⟩ := hv.tried hrate (Nat.sub_le c _) hsmall hasked
    refine ⟨fun hlt => ?_, fun hge => ?_⟩
    · rw [decide_eq_true (Nat.sub_pos_of_lt hlt)] at hadmitted
      rw [hadmitted] at hasked
      exact ⟨_, hasked, Limiter.wrapUnary_admitted hlimited hasked⟩
    · rw [Nat.sub_eq_zero_of_le hge, decide_eq_false (Nat.lt_irrefl 0)] at hadmitted
      rw [hadmitted] at hasked
      exact ⟨_, _, hasked, Limiter.wrapUnary_refused hlimited hasked⟩

/-- Three attempts and a look at a bucket of two tokens. -/
theorem admits_exactly_capacity_two :
    let w := { World.initial with buckets := [.full 1 2 .start] }
    let w₁ := (w.acquire 0).2
    let w₂ := (w₁.available 0).2
    let w₃ := (w₂.acquire 0).2
    [(w.acquire 0).1, (w₂.acquire 0).1, (w₃.acquire 0).1] = [true, true, false] ∧
      (w₁.available 0).1 = some (.ofNat 1) := by
  intro w w₁ w₂ w₃
  obtain ⟨tokens, htokens⟩ : ∃ tokens, (w₁.available 0).1 = some tokens := ⟨_, rfl⟩
  have hlook : Does 0 (.looked tokens) w₁ w₂ := Prod.ext htokens rfl
  have hpast : History 0
      [.tried (w.acquire 0).1, .looked tokens, .tried (w₂.acquire 0).1, .tried (w₃.acquire 0).1]
      w (w₃.acquire 0).2 := .act rfl (.act hlook (.act rfl (.act rfl (.refl _))))
  have hsmall : TokenBucket.wholeCapacity 1 2 ≤ 2 ^ 53 := by
    rw [TokenBucket.wholeCapacity, if_neg (by decide)]
    decide
  have h := admits_exactly_capacity 1 2 0 (by decide +kernel) (by decide +kernel) hsmall rfl hpast
  have hcapacity : TokenBucket.wholeCapacity 1 2 = 2 := by
    rw [TokenBucket.wholeCapacity, if_neg (by decide)]
    rfl
  dsimp only at h
  rw [hcapacity] at h
  have hadmitted : (w.acquire 0).1 = true := (List.cons.inj h.1).1
  refine ⟨h.1, htokens.trans ?_⟩
  rw [(h.2.1 [_] tokens _ rfl).1, successes_tried, hadmitted]
  rfl

end Burst

end RpcPolicy
