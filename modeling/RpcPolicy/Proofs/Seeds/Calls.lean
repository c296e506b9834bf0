import RpcPolicy.Proofs.Retry.Course
/-! Calls through a seeded retry layer and its clones, started in any order while others are in
progress. Main statement: the calls are numbered as they start, and the number of a call alone says
how it sleeps. -/

namespace RpcPolicy

/-- A shorter take is the beginning of a longer one. -/
theorem Cursor.take_prefix {m n : Nat} (h : m ≤ n) (c : Cursor) :
    (c.take m).1 <+: (c.take n).1 := by
  induction m generalizing n c with
  | zero => exact List.nil_prefix
  | succ m ih =>
    obtain ⟨n, rfl⟩ : ∃ k, n = k + 1 := ⟨n - 1, by omega⟩
    cases hd : c.step.1.done with
    | true =>
      rw [Retry.take_of_done hd (m + 1)]
      exact List.nil_prefix
    | false =>
      rw [Retry.take_of_more hd, Retry.take_of_more hd]
      exact (List.cons_prefix_cons).mpr ⟨rfl, ih (by omega) c.step.2⟩

namespace Seeds

/-- A call as it is started: through a layer that wrapped a function, with a request, in a world. -/
structure Call where
  layer : Retry
  next : Unary
  request : Request
  start : World

namespace Call

/-- The cursor that the call takes. -/
def cursor (call : Call) : Cursor := (call.layer.cursor call.start).1

/-- The call once it has been started. -/
def work (call : Call) : Future Outcome :=
  (call.layer.wrapUnary call.next call.request call.start).1

/-- The world once the call has been started. -/
def begun (call : Call) : World :=
  (call.layer.wrapUnary call.next call.request call.start).2

/-- What the call has done since it was first looked at, what is left of it, and the world that the
last look left. -/
def Course (env : Environment) (call : Call) : World → List Retry.Act → Process Outcome → World →
    Prop :=
  Retry.Course env call.next call.layer.sleep call.request
    (Retry.followed call.layer.policy call.start) 0 call.cursor

end Call

/-- A clone of a layer: it keeps the policy, the seed and the counter, and may sleep otherwise. -/
structure CloneOf (r r' : Retry) : Prop where
  policy : r'.policy = r.policy
  seed : r'.seed = r.seed
  place : r'.place = r.place

/-- A call is started through a layer or one of its clones. -/
structure Started (r : Retry) (call : Call) (w v : World) : Prop where
  clone : CloneOf r call.layer
  start : call.start = w
  begun : call.begun = v

/-- Anything that leaves the counter of a layer alone. -/
def Apart (r : Retry) : Environment := fun w v => v.counters[r.place]? = w.counters[r.place]?

/-- Calls are started through a layer and its clones, in order; between them anything else may
happen. -/
abbrev Calls (r : Retry) : List Call → World → World → Prop := Trace (Apart r) (Started r)

/-- Some calls, perhaps none, are started through a layer and its clones. -/
def Starts (r : Retry) : Environment := fun w v => ∃ calls, Calls r calls w v

/-- However a function is called and its calls are looked at, it starts calls through a layer and
its clones, if any, and otherwise leaves the counter of the layer alone. -/
def Tame (r : Retry) (next : Unary) : Prop :=
  ∀ request, (next.deferred request).Keeps (Starts r)

variable {r r' : Retry} {seed : UInt64} {call : Call} {calls : List Call} {next : Unary}
  {request : Request} {u v w : World} {n k : Nat}

/-! ### The numbers of calls -/

theorem begun_eq (call : Call) : call.begun = (call.layer.cursor call.start).2 := by
  unfold Call.begun
  rw [Retry.wrapUnary_eq]

/-- A call adds the count of those before it to the seed, and is counted. -/
theorem Started.counted (h : Started r call w v) (hseed : r.seed = some seed)
    (hw : w.counters[r.place]? = some n) :
    call.cursor = .ofSeed r.policy (seed + UInt64.ofNat n) ∧
      v.counters[r.place]? = some (n + 1) := by
  obtain ⟨clone, rfl, rfl⟩ := h
  have hs : call.layer.seed = some seed := clone.seed.trans hseed
  rw [begun_eq]
  unfold Call.cursor Retry.cursor
  simp only [hs, clone.place, clone.policy, World.count, hw, Option.getD_some, true_and]
  rw [List.getElem?_modify_eq, hw]
  rfl

/-- Each call in a run has the cursor of its number, and all of them are counted. -/
theorem Calls.counted (h : Calls r calls w v) (hseed : r.seed = some seed)
    (hw : w.counters[r.place]? = some n) :
    v.counters[r.place]? = some (n + calls.length) ∧
      ∀ (k : Nat) (call : Call), calls[k]? = some call →
        call.cursor = .ofSeed r.policy (seed + UInt64.ofNat (n + k)) := by
  -- Every start reads the counter that the starts before it left, so it is carried along.
  induction h generalizing n with
  | refl => exact ⟨hw, fun k call hk => nomatch hk⟩
  | quiet step _ ih => exact ih (step.trans hw)
  | @act call calls _ _ _ step _ ih =>
    obtain ⟨hcursor, hv⟩ := step.counted hseed hw
    obtain ⟨hlast, hrest⟩ := ih hv
    refine ⟨?_, fun k call' hk => ?_⟩
    · rw [hlast, List.length_cons, Nat.add_assoc, Nat.add_comm 1]
    · cases k with
      | zero =>
        obtain rfl : call = call' := Option.some.inj hk
        exact hcursor
      | succ k =>
        have hcall := hrest k call' hk
        rwa [Nat.add_assoc, Nat.add_comm 1] at hcall

/-- The seeds of calls go up by one, and start over behind the last one. -/
theorem toNat_seed (seed : UInt64) (k : Nat) :
    (seed + UInt64.ofNat k).toNat = (seed.toNat + k) % 2 ^ 64 := by
  rw [UInt64.toNat_add, UInt64.toNat_ofNat']
  omega

theorem seed_injective (seed : UInt64) {i j : Nat} (hi : i < 2 ^ 64) (hj : j < 2 ^ 64)
    (h : seed + UInt64.ofNat i = seed + UInt64.ofNat j) : i = j := by
  have hnat := congrArg UInt64.toNat h
  rw [toNat_seed, toNat_seed] at hnat
  omega

/-! ### Calls in progress -/

theorem becomes_iff {env : Environment} {q : Process Outcome} :
    call.work.Becomes env w q v ↔ ∃ acts, call.Course env w acts q v := by
  unfold Call.work Call.Course Call.cursor
  rw [Retry.wrapUnary_eq]
  constructor
  · exact Retry.exists_course
  · rintro ⟨acts, h⟩
    exact h.becomes

theorem Starts.refl (r : Retry) (w : World) : Starts r w w := ⟨[], .refl w⟩

theorem Starts.trans (h : Starts r u v) (h' : Starts r v w) : Starts r u w := by
  obtain ⟨calls, hcalls⟩ := h
  obtain ⟨more, hmore⟩ := h'
  exact ⟨calls ++ more, hcalls.trans hmore⟩

theorem Starts.of_apart (h : Apart r w v) : Starts r w v := ⟨[], .silently h⟩

/-- Looks at a call start no calls but those that its attempts and its sleeps start. -/
theorem work_keeps (hnext : Tame r call.next)
    (hsleep : Retry.SleepKeeps (Starts r) call.layer.sleep) : call.work.Keeps (Starts r) := by
  unfold Call.work
  rw [Retry.wrapUnary_eq]
  have htold : ∀ w e, Starts r w (w.record e) := fun _ _ => .of_apart rfl
  exact Retry.attempts_keep (Starts.refl r) Starts.trans htold hsleep (hnext call.request) _ _ _

/-- A function that a clone wrapped may be wrapped again. -/
theorem Tame.wrapUnary (hnext : Tame r next) (clone : CloneOf r r')
    (hsleep : Retry.SleepKeeps (Starts r) r'.sleep) : Tame r (r'.wrapUnary next) := by
  intro request w q v h
  let call : Call := ⟨r', next, request, w⟩
  have hstarted : Started r call w call.begun := ⟨clone, rfl, rfl⟩
  have hlook : (r'.wrapUnary next).deferred request w = call.work call.begun := rfl
  have hrest : Starts r call.begun v := work_keeps hnext hsleep _ q v (h.of_eq hlook)
  exact Starts.trans ⟨[call], .single hstarted⟩ hrest

/-! ### Runs of calls -/

/-- A layer that was just made has counted no call. -/
theorem counters_of_create {policy : BackoffPolicy} {sleep : Sleep}
    (made : Retry.create policy (some seed) sleep u = (r, w)) :
    r.policy = policy ∧ r.seed = some seed ∧ w.counters[r.place]? = some 0 := by
  cases made
  exact ⟨rfl, rfl, List.getElem?_concat_length⟩

/-- The calls of a run have the cursors of their numbers. -/
theorem Calls.cursors {policy : BackoffPolicy} {sleep : Sleep}
    (made : Retry.create policy (some seed) sleep u = (r, w)) (h : Calls r calls w v)
    (hk : calls[k]? = some call) : call.cursor = .ofSeed policy (seed + UInt64.ofNat k) := by
  obtain ⟨rfl, hseed, hplace⟩ := counters_of_create made
  have hcalls := (h.counted hseed hplace).2 k call hk
  rwa [Nat.zero_add] at hcalls

/-- The `k`-th call through a seeded layer and its clones sleeps what a cursor seeded with the
layer's seed plus `k` gives away, in this run and in any other of a layer so seeded. -/
theorem calls_reproducible {policy : BackoffPolicy} {sleep : Sleep}
    (made : Retry.create policy (some seed) sleep u = (r, w)) (h : Calls r calls w v) :
    (∀ (k : Nat) (call : Call), calls[k]? = some call →
      call.cursor = .ofSeed policy (seed + UInt64.ofNat k) ∧
      (seed + UInt64.ofNat k).toNat = (seed.toNat + k) % 2 ^ 64 ∧
      ∀ env x q y, (call.work.Becomes env x q y ↔ ∃ acts, call.Course env x acts q y) ∧
        ∀ acts, call.Course env x acts q y → Retry.delays acts =
          ((Cursor.ofSeed policy (seed + UInt64.ofNat k)).take (Retry.rejections acts)).1) ∧
    (∀ i j, i < 2 ^ 64 → j < 2 ^ 64 → seed + UInt64.ofNat i = seed + UInt64.ofNat j → i = j) ∧
    (∀ sleep' u' r' w' calls' v', Retry.create policy (some seed) sleep' u' = (r', w') →
      Calls r' calls' w' v' → ∀ (k : Nat) (call call' : Call), calls[k]? = some call →
        calls'[k]? = some call' → call.cursor = call'.cursor ∧
        ∀ env env' x x' q q' y y' acts acts', call.Course env x acts q y →
          call'.Course env' x' acts' q' y' → Retry.rejections acts ≤ Retry.rejections acts' →
          Retry.delays acts <+: Retry.delays acts') ∧
    (∀ call ∈ calls, Tame r call.next → Retry.SleepKeeps (Starts r) call.layer.sleep →
      ∀ q y, call.work.Becomes (Starts r) v q y → ∃ more, Calls r (calls ++ more) w y) := by
  refine ⟨?course, fun i j => seed_injective seed, ?again, ?looks⟩
  case course =>
    intro k call hk
    have hcursor := h.cursors made hk
    refine ⟨hcursor, toNat_seed seed k, fun env x q y => ⟨becomes_iff, ?_⟩⟩
    intro acts hacts
    rw [← hcursor]
    exact Retry.Course.delays hacts
  case again =>
    intro sleep' u' r' w' calls' v' made' h' k call call' hk hk'
    have hsame : call.cursor = call'.cursor :=
      (h.cursors made hk).trans (h'.cursors made' hk').symm
    refine ⟨hsame, fun env env' x x' q q' y y' acts acts' hacts hacts' hle => ?_⟩
    rw [Retry.Course.delays hacts, Retry.Course.delays hacts', ← hsame]
    exact Cursor.take_prefix hle call.cursor
  case looks =>
    intro call _ hnext hsleep q y hlooks
    obtain ⟨more, hmore⟩ := work_keeps hnext hsleep v q y hlooks
    exact ⟨more, h.trans hmore⟩

/-- A call through a layer with the largest seed, rejected twice, and one through a clone that
sleeps otherwise, with seed zero; looks at that one start further calls. -/
theorem calls_reproducible_nested :
    let policy := { BackoffPolicy.standard with maxRetries := 2 }
    let seed : UInt64 := 18446744073709551615
    let layer : Retry := ⟨policy, some seed, .recorded, 0⟩
    let fresh : World := { World.initial with counters := [0] }
    let request := Request.ofBody "p" default 0
    let inner := Retry.answering Retry.busyTwice
    let first : Call := ⟨layer, inner, request, fresh⟩
    let second : Call :=
      ⟨{ layer with sleep := .timer }, layer.wrapUnary inner, request, first.begun⟩
    Calls layer [first, second] fresh second.begun ∧
      first.cursor = .ofSeed policy seed ∧ second.cursor = .ofSeed policy 0 ∧
      (∃ acts y, first.Course (Starts layer) second.begun acts (.done (.ok default)) y ∧
        Retry.rejections acts = 2 ∧
        Retry.delays acts = ((Cursor.ofSeed policy seed).take 2).1) ∧
      ∀ q y, second.work.Becomes (Starts layer) second.begun q y →
        ∃ more, Calls layer ([first, second] ++ more) fresh y := by
  intro policy seed layer fresh request inner first second
  have hlayer : CloneOf layer layer := ⟨rfl, rfl, rfl⟩
  have hrun : Calls layer [first, second] fresh second.begun :=
    .act ⟨hlayer, rfl, rfl⟩ (.single ⟨⟨rfl, rfl, rfl⟩, rfl, rfl⟩)
  have htold : ∀ w e, Starts layer w (w.record e) := fun _ _ => .of_apart rfl
  have hinner : Tame layer inner := by
    intro request w q v h
    rw [(Process.becomes_of_done h).2]
    exact .of_apart rfl
  have hmade : Retry.create policy (some seed) .recorded .initial = (layer, fresh) := rfl
  obtain ⟨hcourse, -, -, hlooks⟩ := calls_reproducible hmade hrun
  have hseed : seed + UInt64.ofNat 0 = seed := by decide
  have hover : seed + UInt64.ofNat 1 = 0 := by decide
  obtain ⟨hfirst, -, hdelays⟩ := hcourse 0 first rfl
  obtain ⟨hsecond, -⟩ := hcourse 1 second rfl
  rw [hseed] at hfirst hdelays
  rw [hover] at hsecond
  refine ⟨hrun, hfirst, hsecond, ?_, ?_⟩
  · obtain ⟨acts, y, hacts, htwo⟩ : ∃ acts y, first.Course (Starts layer) second.begun acts
        (.done (.ok default)) y ∧ Retry.rejections acts = 2 :=
      ⟨_, _, .again rfl (.done _ _) rfl rfl (.slept rfl (.done _ _))
        (.again rfl (.done _ _) rfl rfl (.slept rfl (.done _ _)) (.passed rfl (.done _ _) rfl)),
        rfl⟩
    have htake := (hdelays _ _ _ _).2 acts hacts
    rw [htwo] at htake
    exact ⟨acts, y, hacts, htwo, htake⟩
  · have hnext : Tame layer (layer.wrapUnary inner) :=
      hinner.wrapUnary hlayer (Retry.recorded_keeps (Starts.refl layer) htold)
    exact hlooks second (by simp) hnext (Retry.timer_keeps (Starts.refl layer))

end Seeds

end RpcPolicy
