import RpcPolicy.Proofs.Sharing.Runs
/-! What the bundles of a run have to do with one another: nothing. Main statement: the clients of
one bundle share one bucket, and leaving out the attempts of other bundles leaves a run in which
their attempts get the same verdicts. -/

namespace RpcPolicy.Sharing

variable {own : Nat → Prop} {bs : List Bundle} {b : Bundle} {log : List Verdict} {i : Nat}
  {u v w w₀ : World} {keep : Nat → Bool} {t : Transport} {request : Request}

/-! ### Leaving out attempts -/

/-- The verdicts on the attempts of some of the bundles. -/
def thinned (keep : Nat → Bool) (log : List Verdict) : List Verdict :=
  log.filter fun verdict => keep verdict.bundle

theorem group_thinned (h : keep i = true) (log : List Verdict) :
    group i (thinned keep log) = group i log := by
  unfold group thinned
  rw [List.filter_filter]
  refine List.filter_congr fun verdict _ => ?_
  cases hi : verdict.bundle == i with
  | false => rfl
  | true => rw [eq_of_beq hi, h, Bool.and_true]

/-- The same owned places have a bucket. -/
def Stocked (own : Nat → Prop) (w u : World) : Prop :=
  ∀ place, own place → (u.buckets[place]?).isSome = (w.buckets[place]?).isSome

theorem stocked_of_length (h : u.buckets.length = w.buckets.length) : Stocked own w u := by
  intro place _
  rw [Bool.eq_iff_iff, isSome_getElem?, isSome_getElem?, h]

theorem stocked_of_spares (h : Spares own w u) : Stocked own w u := by
  intro place hplace
  rw [h place hplace]

theorem Stocked.trans (h : Stocked own u v) (h' : Stocked own v w) : Stocked own u w :=
  fun place hplace => (h' place hplace).trans (h place hplace)

theorem Stocked.symm (h : Stocked own w u) : Stocked own u w :=
  fun place hplace => (h place hplace).symm

/-- Everything but the owned buckets can be made to match another world. -/
theorem exists_matching (h : Stocked own w u) : ∃ u', Spares own u u' ∧ Matching w u' := by
  classical
  let pick : Nat → TokenBucket → TokenBucket := fun place bucket =>
    if own place then u.buckets[place]?.getD bucket else bucket
  refine ⟨{ w with buckets := w.buckets.mapIdx pick }, ?_, ⟨rfl, rfl, List.length_mapIdx⟩⟩
  intro place hplace
  have hstocked := h place hplace
  rw [List.getElem?_mapIdx]
  cases hw : w.buckets[place]? with
  | none =>
    rw [hw, Option.isSome_none, Option.isSome_eq_false_iff, Option.isNone_iff_eq_none] at hstocked
    rw [hstocked, Option.map_none]
  | some bucket =>
    rw [hw, Option.isSome_some] at hstocked
    obtain ⟨bucket', hbucket'⟩ := Option.isSome_iff_exists.mp hstocked
    simp [pick, hplace, hbucket']

theorem stocked_attempt (hlimits : ∀ l, b.limiter = some l → l.isUnlimited = false)
    (hinner : ∀ request u, Spares own u (b.inner t request u).2) :
    Stocked own w (b.attempt t request w).2 :=
  (stocked_of_length (b.length_acquire w)).trans
    (stocked_of_spares (Bundle.spares_attempt hlimits hinner request w))

/-- Leaving out all attempts of some bundles leaves a run, through the same bundles. -/
theorem Run.thinned (h : Run own w₀ bs log w) (keep : Nat → Bool) :
    ∃ u, Run own w₀ bs (thinned keep log) u ∧ Matching w u := by
  induction h with
  | start => exact ⟨w₀, .start, rfl, rfl, rfl⟩
  | @other bs log w v _ spares ih =>
    obtain ⟨u, hrun, hmatch⟩ := ih
    have hstocked := (stocked_of_spares spares).symm.trans (stocked_of_length hmatch.buckets)
    obtain ⟨u', hspares, hmatch'⟩ := exists_matching hstocked
    exact ⟨u', .other hrun hspares, hmatch'⟩
  | dial _ dialed owned ih =>
    obtain ⟨u, hrun, hmatch⟩ := ih
    obtain ⟨u', hdialed, hmatch'⟩ := dialed.congr hmatch
    exact ⟨u', .dial hrun hdialed owned, hmatch'⟩
  | @attempt bs log w b i past member t request inner ih =>
    obtain ⟨u, hrun, hmatch⟩ := ih
    have hlimits := past.consistent.limits member
    have hw : Stocked own w (b.attempt t request w).2 := stocked_attempt hlimits inner
    have hu : Stocked own u (b.attempt t request u).2 := stocked_attempt hlimits inner
    have hwu : Stocked own w u := stocked_of_length hmatch.buckets
    cases hkeep : keep i with
    | false =>
      -- The attempt is left out: what else it did can happen without it.
      obtain ⟨u', hspares, hmatch'⟩ := exists_matching (hw.symm.trans hwu)
      refine ⟨u', ?_, hmatch'⟩
      simpa [Sharing.thinned, hkeep] using hrun.other hspares
    | true =>
      have hverdict : (b.acquire u).1 = (b.acquire w).1 := by
        rw [past.consistent.asked member, hrun.consistent.asked member, hmatch.clock, ops, ops,
          group_thinned hkeep]
      obtain ⟨u', hspares, hmatch'⟩ := exists_matching ((hw.symm.trans hwu).trans hu)
      refine ⟨u', ?_, hmatch'⟩
      have hattempt := (hrun.attempt member t request inner).other hspares
      rw [hverdict, hmatch.clock] at hattempt
      simpa [Sharing.thinned, hkeep] using hattempt

/-! ### Looks at calls -/

/-- From one world to the other there are only attempts of one bundle, and what leaves all buckets
of bundles alone. -/
def Attempts (own : Nat → Prop) (w₀ : World) (i : Nat) (b : Bundle) : Environment := fun w v =>
  ∀ bs log, bs[i]? = some b → Run own w₀ bs log w →
    ∃ more, (∀ verdict ∈ more, verdict.bundle = i) ∧ Run own w₀ bs (log ++ more) v

theorem attempts_of_spares (h : Spares own w v) : Attempts own w₀ i b w v := by
  intro bs log _ hrun
  refine ⟨[], by simp, ?_⟩
  rw [List.append_nil]
  exact hrun.other h

theorem flow_attempts : Flow (Attempts own w₀ i b) where
  idle h := attempts_of_spares (flow_spares.idle h)
  trans := by
    intro u v w h h' bs log hb hrun
    obtain ⟨more, hmore, hrun'⟩ := h bs log hb hrun
    obtain ⟨rest, hrest, hrun''⟩ := h' bs _ hb hrun'
    refine ⟨more ++ rest, ?_, ?_⟩
    · intro verdict hmem
      rcases List.mem_append.mp hmem with hmem | hmem
      · exact hmore verdict hmem
      · exact hrest verdict hmem
    · rw [← List.append_assoc]
      exact hrun''

/-- An attempt is one attempt on the bucket of its bundle. -/
theorem attempt_moves (hlimits : ∀ l, b.limiter = some l → l.isUnlimited = false)
    (hinner : (b.inner t).Moves (Spares own)) : (b.attempt t).Moves (Attempts own w₀ i b) := by
  intro request w
  refine ⟨fun bs log hb hrun => ?_, ?_⟩
  · exact ⟨[⟨i, w.clock, (b.acquire w).1⟩], by simp,
      hrun.attempt hb t request fun request u => (hinner request u).1⟩
  · cases ha : b.acquire w with
    | mk admitted v =>
      cases admitted with
      | true =>
        rw [Bundle.attempt_admitted t request hlimits ha]
        exact (hinner request v).2.mono fun _ _ => attempts_of_spares
      | false =>
        obtain ⟨l, -, hrefused⟩ := Bundle.attempt_refused t request hlimits ha
        rw [hrefused]
        exact .ready flow_attempts _

/-- A call of a client comes to nothing but attempts, however it is looked at. -/
theorem unary_moves (hd : b.Dialed u v) (hcallers : ∀ i ∈ b.callers, Tame own i)
    (ht : t.unary.Moves (Spares own)) (w₀ : World) (i : Nat) (request : Request) :
    ((Client.ofTransport t b.options).unary request).Moves (Attempts own w₀ i b) := by
  have hattempt : (b.attempt t).Moves (Attempts own w₀ i b) :=
    attempt_moves (fun l => hd.limits) (inner_moves hcallers ht)
  have hwrapped : (Client.ofTransport t b.options).wrappedUnary.Moves (Attempts own w₀ i b) := by
    obtain ⟨retry, -, hsleep, hclient⟩ := hd.wrappedUnary
    rw [hclient]
    cases retry with
    | none => exact hattempt
    | some r => exact Retry.wrapUnary_moves flow_attempts (hsleep r rfl) hattempt
  intro w
  let begun := w.record (Client.callSpan request.procedure "unary")
  have hspan : Attempts own w₀ i b w begun := flow_attempts.idle rfl
  obtain ⟨hmade, hchain⟩ := hwrapped { request with options := b.options.callOptions } begun
  have hlook := hchain.limit flow_attempts (Client.unaryBounds request)
    ((Client.ofTransport t b.options).called request w).2
  exact ⟨flow_attempts.trans hspan (flow_attempts.trans hmade hlook.1), hlook.2⟩

/-! ### Bundles -/

/-- What a run says about one of its bundles, whose clients may be any number, on any transports. -/
structure Group (own : Nat → Prop) (w₀ : World) (bs : List Bundle) (log : List Verdict) (w : World)
    (i : Nat) (b : Bundle) : Prop where
  /-- There is a limiter exactly for a positive rate. -/
  limited : b.limiter.isSome = (0 : Binary64).lt b.config.rate
  /-- The verdicts are those of a single bucket that gets the attempts of this bundle alone. -/
  verdicts : (group i log).map Verdict.admitted = b.fresh.outcomes (ops i log)
  /-- A client makes attempts within its retries, or it makes one. -/
  client : ∃ retry : Option Retry, retry.isSome = b.config.retryOnRateLimit ∧
    ∀ t, (Client.ofTransport t b.options).wrappedUnary =
      retry.elim (b.attempt t) fun r => r.wrapUnary (b.attempt t)
  /-- What the limiter admits comes to the layers of the caller and to the transport. -/
  admitted : (b.acquire w).1 = true → ∀ t request,
    b.attempt t request w = b.inner t request (b.acquire w).2
  /-- What the limiter refuses ends in its rejection. -/
  refused : (b.acquire w).1 = false → ∀ t request, ∃ l, b.limiter = some l ∧
    b.attempt t request w = (.ready (.error l.rejection),
      (b.acquire w).2.record (l.rejectionEvent request.procedure))
  /-- Any look at a call of any client, be it the first or a later one, goes on with the run by
  attempts of this bundle, and none of another. -/
  looks : (∀ j ∈ b.callers, Tame own j) → ∀ t : Transport, t.unary.Moves (Spares own) →
    ∀ request g, (g = (Client.ofTransport t b.options).unary request ∨
        ∃ u, Future.Rest ((Client.ofTransport t b.options).unary request) u g) →
      ∃ more, (∀ verdict ∈ more, verdict.bundle = i) ∧ Run own w₀ bs (log ++ more) (g w).2

/-- The clients of one bundle are admitted and refused as by a single bucket that gets their
attempts in this order, with the attempts of other bundles or without them. -/
theorem run_shares (h : Run own w₀ bs log w) :
    (∀ i b, bs[i]? = some b → Group own w₀ bs log w i b) ∧
      ∀ keep : Nat → Bool, ∃ u, Run own w₀ bs (thinned keep log) u ∧
        ∀ i, keep i = true → group i (thinned keep log) = group i log := by
  refine ⟨fun i b hb => ?_, fun keep => ?_⟩
  · have hc := h.consistent
    obtain ⟨u, v, hd⟩ := hc.dialed i b hb
    have hlimits := hc.limits hb
    refine ⟨hd.isSome_limiter, hc.verdicts i b hb, ?_, ?_, ?_, ?_⟩
    · obtain ⟨retry, hretry, -, hclient⟩ := hd.wrappedUnary
      exact ⟨retry, hretry, hclient⟩
    · intro ha t request
      exact Bundle.attempt_admitted t request hlimits (Prod.ext ha rfl)
    · intro ha t request
      exact Bundle.attempt_refused t request hlimits (Prod.ext ha rfl)
    · intro hcallers t ht request g hg
      have hcall := unary_moves hd hcallers ht w₀ i request
      rcases hg with rfl | ⟨u', hrest⟩
      · exact (hcall w).1 bs log hb h
      · exact ((Future.Moves.rest flow_attempts (hcall u').2 hrest) w).1 bs log hb h
  · obtain ⟨u, hrun, -⟩ := h.thinned keep
    exact ⟨u, hrun, fun i hi => group_thinned hi log⟩

/-- One configuration with a bucket of one token, dialed twice: the attempts of the second bundle
take nothing from the first. -/
theorem run_shares_twice :
    let config := { ClientConfig.standard with rate := 1, burst := 1 }
    let own : Nat → Prop := fun _ => True
    let t : Transport := ⟨fun r w => (.ready (.ok ⟨[], r.body⟩), w), fun _ w => (.never, w)⟩
    ∃ bs log w, Run own .initial bs log w ∧ bs.map Bundle.config = [config, config] ∧
      order log = [(0, .start), (1, .start), (0, .start)] ∧
      (group 0 log).map Verdict.admitted = [true, false] ∧
      (group 1 log).map Verdict.admitted = [true] ∧
      (∃ u, Run own .initial bs (thinned (· == 0) log) u ∧
        group 0 (thinned (· == 0) log) = group 0 log) ∧
      ∃ b, bs[0]? = some b ∧ ∀ request, ∃ more, (∀ verdict ∈ more, verdict.bundle = 0) ∧
        Run own .initial bs (log ++ more)
          ((Client.ofTransport t b.options).unary request w).2 := by
  intro config own t
  let callers : List Interceptor := [.header ⟨"x"⟩ (.ofVisible "y")]
  have hvalid : config.validate = .ok () :=
    ClientConfig.validate_of_isOk (by decide +kernel)
  have hdial : ∀ w, ∃ (b : Bundle) (v : World), b.Dialed w v ∧ b.config = config ∧
      b.callers = callers ∧ b.since = w.clock := fun w =>
    exists_dialed (aside_resolving fun _ => .ok .insecure) callers hvalid rfl w rfl
  have ht : t.unary.Moves (Spares own) := fun r w => ⟨flow_spares.refl w, .ready flow_spares _⟩
  obtain ⟨b₀, v₀, hd₀, hconfig₀, hcallers₀, hsince₀⟩ := hdial .initial
  obtain ⟨b₁, v₁, hd₁, hconfig₁, hcallers₁, hsince₁⟩ := hdial { v₀ with clock := .start }
  have htame : ∀ b ∈ [b₀, b₁], ∀ j ∈ b.callers, Tame own j := by
    intro b hb
    have hcallers : b.callers = callers := by
      rcases List.mem_cons.mp hb with rfl | hb
      · exact hcallers₀
      · rw [List.mem_singleton.mp hb]
        exact hcallers₁
    rw [hcallers]
    exact List.forall_mem_singleton.mpr (tame_header own _ _)
  have hfirst : Run own .initial [b₀] [] { v₀ with clock := .start } :=
    (Run.start.dial hd₀ fun _ _ => trivial).other fun _ _ => rfl
  obtain ⟨log, w, hrun, horder⟩ := (hfirst.dial hd₁ fun _ _ => trivial).exists_order t
    (Request.ofBody "/test.Service/Method" default 0)
    (fun b hb request u => (inner_moves (htame b hb) ht request u).1)
    [(0, .start), (1, .start), (0, .start)] (by simp)
  obtain ⟨hgroups, hthinned⟩ := run_shares hrun
  have hgroup₀ := hgroups 0 b₀ rfl
  have hgroup₁ := hgroups 1 b₁ rfl
  have hfresh₀ : b₀.fresh = .full 1 1 .start := by
    rw [Bundle.fresh, hconfig₀, hsince₀]
    rfl
  have hfresh₁ : b₁.fresh = .full 1 1 .start := by rw [Bundle.fresh, hconfig₁, hsince₁]
  refine ⟨[b₀, b₁], log, w, hrun, by simp [hconfig₀, hconfig₁], horder, ?_, ?_, ?_, ?_⟩
  · have hverdicts := hgroup₀.verdicts
    rw [hfresh₀, List.nil_append, ops_eq, horder] at hverdicts
    exact hverdicts.trans (by decide +kernel)
  · have hverdicts := hgroup₁.verdicts
    rw [hfresh₁, List.nil_append, ops_eq, horder] at hverdicts
    exact hverdicts.trans (by decide +kernel)
  · obtain ⟨u, hu, hsame⟩ := hthinned (· == 0)
    exact ⟨u, hu, hsame 0 rfl⟩
  · exact ⟨b₀, rfl, fun request =>
      hgroup₀.looks (htame b₀ (List.mem_cons_self ..)) t ht request _ (Or.inl rfl)⟩

end RpcPolicy.Sharing
