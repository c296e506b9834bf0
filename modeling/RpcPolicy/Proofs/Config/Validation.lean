import RpcPolicy.Config.Basic
import RpcPolicy.Proofs.Number.Order
/-! The rules of a valid configuration, in the order of their checks. Main statement: validation
accepts what keeps to all of them, and else names the first that is broken. -/

namespace RpcPolicy

/-- A rule of configurations, with the error of one that breaks it. -/
structure Rule where
  holds : Prop
  error : ConfigError

/-- The first rule that is broken has an error. -/
inductive FirstBroken : List Rule → ConfigError → Prop
  | here {r : Rule} (rs : List Rule) (broken : ¬ r.holds) : FirstBroken (r :: rs) r.error
  | later {r : Rule} {rs : List Rule} {e : ConfigError} (kept : r.holds)
      (rest : FirstBroken rs e) : FirstBroken (r :: rs) e

/-- What a check in order comes to: nothing if every rule is kept, else the error of the first that
is broken. -/
def Checks (rs : List Rule) : Except ConfigError Unit → Prop
  | .ok _ => ∀ r ∈ rs, r.holds
  | .error e => FirstBroken rs e

variable {r : Rule} {rs : List Rule} {e e' : ConfigError} {x : Except ConfigError Unit}

theorem FirstBroken.unique (h : FirstBroken rs e) (h' : FirstBroken rs e') : e = e' := by
  induction h with
  | here rs broken =>
    cases h' with
    | here => rfl
    | later kept _ => exact absurd kept broken
  | later kept _ ih =>
    cases h' with
    | here _ broken => exact absurd kept broken
    | later _ rest => exact ih rest

theorem FirstBroken.not_kept (h : FirstBroken rs e) : ¬ ∀ r ∈ rs, r.holds := by
  intro hall
  induction h with
  | here rs broken => exact broken (hall _ (List.mem_cons_self ..))
  | later _ _ ih => exact ih fun r hr => hall r (List.mem_cons_of_mem _ hr)

namespace Checks

theorem nil : Checks [] (.ok ()) := List.forall_mem_nil _

theorem here (broken : ¬ r.holds) : Checks (r :: rs) (.error r.error) :=
  FirstBroken.here rs broken

theorem later (kept : r.holds) (h : Checks rs x) : Checks (r :: rs) x := by
  cases x with
  | error e => exact FirstBroken.later kept h
  | ok _ => exact List.forall_mem_cons.mpr ⟨kept, h⟩

theorem ok_iff (h : Checks rs x) : x = .ok () ↔ ∀ r ∈ rs, r.holds := by
  cases x with
  | ok _ => exact ⟨fun _ => h, fun _ => rfl⟩
  | error e => exact ⟨fun heq => (nomatch heq), fun hall => absurd hall h.not_kept⟩

theorem error_iff (h : Checks rs x) : x = .error e ↔ FirstBroken rs e := by
  cases x with
  | ok _ =>
    refine ⟨fun heq => (nomatch heq), fun hbroken => ?_⟩
    exact absurd h hbroken.not_kept
  | error e' =>
    constructor
    · intro heq
      cases heq
      exact h
    · intro hbroken
      rw [FirstBroken.unique h hbroken]

end Checks

/-! ### Delays -/

namespace BackoffPolicy

/-- The rules of a policy, in the order of their checks. -/
def rules (p : BackoffPolicy) : List Rule :=
  [⟨p.jitter.isFinite = true ∧ 0 ≤ p.jitter.value ∧ p.jitter.value ≤ 1, .invalidJitter p.jitter⟩,
    ⟨p.minDelay.nanos = 0 ∨ p.maxDelay.nanos = 0 ∨ p.minDelay.nanos ≤ p.maxDelay.nanos,
      .invalidBackoff p.minDelay p.maxDelay⟩]

theorem validate_checks (p : BackoffPolicy) : Checks p.rules p.validate := by
  have hjitter := Binary64.between_iff_value (x := p.jitter) Binary64.isFinite_zero
    Binary64.isFinite_one
  rw [Binary64.value_zero, Binary64.value_one] at hjitter
  unfold validate
  cases hj : (0 : Binary64).le p.jitter && p.jitter.le 1 with
  | false =>
    rw [hj] at hjitter
    exact .here fun hrange => nomatch hjitter.mpr hrange
  | true =>
    refine .later (hjitter.mp hj) ?_
    by_cases hdelays : p.minDelay.nanos = 0 ∨ p.maxDelay.nanos = 0 ∨
        p.minDelay.nanos ≤ p.maxDelay.nanos
    · have hpass : (!p.minDelay.isZero && !p.maxDelay.isZero &&
          decide (p.maxDelay.nanos < p.minDelay.nanos)) = false := by
        simp [Duration.isZero]
        omega
      simp only [hpass, Bool.not_true, Bool.false_eq_true, if_false]
      exact .later hdelays .nil
    · have hfail : (!p.minDelay.isZero && !p.maxDelay.isZero &&
          decide (p.maxDelay.nanos < p.minDelay.nanos)) = true := by
        simp [Duration.isZero]
        omega
      simp only [hfail, Bool.not_true, Bool.false_eq_true, if_false, if_true]
      exact .here hdelays

end BackoffPolicy

/-! ### Configurations -/

namespace Compression

theorem ofName?_eq_some {s : String} {codec : Compression} :
    ofName? s = some codec ↔ codec.name = s := by
  constructor
  · intro h
    have hfound := List.find?_some (p := fun c : Compression => decide (c.name = s)) h
    exact of_decide_eq_true hfound
  · rintro rfl
    cases codec <;> rfl

/-- The empty name selects no codec, every other one the codec of that name. -/
theorem select?_eq_some {s : String} {codec : Option Compression} :
    select? s = some codec ↔ codec.elim "" name = s := by
  unfold select?
  split
  · rename_i hs
    subst hs
    cases codec with
    | none => exact ⟨fun _ => rfl, fun _ => rfl⟩
    | some codec => cases codec <;> decide
  · rename_i hs
    cases codec with
    | none =>
      refine ⟨fun h => ?_, fun h => absurd h.symm hs⟩
      cases hname : ofName? s <;> rw [hname] at h <;> cases h
    | some codec =>
      rw [Option.map_eq_some_iff]
      constructor
      · rintro ⟨codec', hname, heq⟩
        cases heq
        exact ofName?_eq_some.mp hname
      · intro hname
        exact ⟨codec, ofName?_eq_some.mpr hname, rfl⟩

/-- The names that may be configured. -/
theorem isSome_select? {s : String} :
    (select? s).isSome = true ↔ s = "" ∨ s = "gzip" ∨ s = "snappy" := by
  rw [Option.isSome_iff_exists]
  constructor
  · rintro ⟨codec, h⟩
    rw [← select?_eq_some.mp h]
    rcases codec with _ | _ | _ <;> decide
  · rintro (rfl | rfl | rfl)
    · exact ⟨none, rfl⟩
    · exact ⟨some .gzip, rfl⟩
    · exact ⟨some .snappy, rfl⟩

end Compression

namespace ClientConfig

variable {c : ClientConfig} {options : CallOptions}

/-- The rules of a configuration, in the order of their checks. -/
def rules (c : ClientConfig) : List Rule :=
  [⟨c.compression = "" ∨ c.compression = "gzip" ∨ c.compression = "snappy",
      .unsupportedCompression c.compression⟩,
    ⟨0 < c.maxReceive.toNat, .invalidMessageSize .receive⟩,
    ⟨0 < c.maxSend.toNat, .invalidMessageSize .send⟩,
    ⟨c.rate.isFinite = true ∧ 0 ≤ c.rate.value, .invalidRateLimit c.rate⟩] ++ c.backoff.rules

theorem size_pos {size : UInt64} (h : size ≠ 0) : 0 < size.toNat :=
  Nat.pos_of_ne_zero fun hzero => h (UInt64.toNat_inj.mp hzero)

theorem rate_refused (c : ClientConfig) :
    (!c.rate.isFinite || c.rate.lt 0) = false ↔ c.rate.isFinite = true ∧ 0 ≤ c.rate.value := by
  rw [Bool.or_eq_false_iff, Bool.not_eq_false']
  refine and_congr_right fun hfinite => ?_
  have hlt := Binary64.lt_iff_value hfinite Binary64.isFinite_zero
  rw [Binary64.value_zero] at hlt
  rw [← Bool.not_eq_true, hlt, not_lt]

theorem validate_checks (c : ClientConfig) : Checks c.rules c.validate := by
  have hknown := Compression.isSome_select? (s := c.compression)
  unfold validate codec rules
  cases hcodec : Compression.select? c.compression with
  | none =>
    rw [hcodec] at hknown
    exact .here fun hname => nomatch hknown.mpr hname
  | some codec =>
    rw [hcodec] at hknown
    refine .later (hknown.mp rfl) ?_
    dsimp only
    by_cases hreceive : c.maxReceive = 0
    · rw [if_pos hreceive]
      exact .here (by rw [hreceive]; decide)
    rw [if_neg hreceive]
    refine .later (size_pos hreceive) ?_
    by_cases hsend : c.maxSend = 0
    · rw [if_pos hsend]
      exact .here (by rw [hsend]; decide)
    rw [if_neg hsend]
    refine .later (size_pos hsend) ?_
    have hrate := c.rate_refused
    cases hr : !c.rate.isFinite || c.rate.lt 0 with
    | true =>
      rw [hr] at hrate
      exact .here fun hsound => nomatch hrate.mpr hsound
    | false => exact .later (hrate.mp hr) c.backoff.validate_checks

/-- The options of every call are the configured sizes, and the codec of the configured name. -/
theorem callOptions_eq_ok : c.callOptions = .ok options ↔
    options.maxReceive = c.maxReceive ∧ options.maxSend = c.maxSend ∧
      options.compression.elim "" Compression.name = c.compression := by
  unfold callOptions codec
  cases hcodec : Compression.select? c.compression with
  | none =>
    refine ⟨fun h => (nomatch h), fun ⟨_, _, hname⟩ => ?_⟩
    rw [Compression.select?_eq_some.mpr hname] at hcodec
    cases hcodec
  | some codec =>
    have hname := Compression.select?_eq_some.mp hcodec
    constructor
    · intro h
      cases h
      exact ⟨rfl, rfl, hname⟩
    · rintro ⟨hreceive, hsend, hoptions⟩
      rw [← hoptions, Compression.select?_eq_some.mpr rfl] at hcodec
      obtain ⟨maxReceive, maxSend, compression⟩ := options
      cases hcodec
      cases hreceive
      cases hsend
      rfl

/-- Options can be made of every configuration that is valid. -/
theorem exists_callOptions (h : c.validate = .ok ()) : ∃ options, c.callOptions = .ok options := by
  have hname := c.validate_checks.ok_iff.mp h _ (List.mem_cons_self ..)
  obtain ⟨codec, hcodec⟩ := Option.isSome_iff_exists.mp (Compression.isSome_select?.mpr hname)
  exact ⟨⟨c.maxReceive, c.maxSend, codec⟩,
    callOptions_eq_ok.mpr ⟨rfl, rfl, Compression.select?_eq_some.mp hcodec⟩⟩

end ClientConfig

end RpcPolicy
