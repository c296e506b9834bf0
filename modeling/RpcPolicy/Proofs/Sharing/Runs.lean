import RpcPolicy.Proofs.Sharing.Bundles
import RpcPolicy.Proofs.TokenBucket.Deletions
/-! Runs in which bundles are dialed and attempts are made through them, in any order. Main
statement: the attempts of the clients of one bundle are admitted and refused as by one bucket that
gets these attempts and no others. -/

namespace RpcPolicy

namespace TokenBucket

variable {b : TokenBucket} {op : Op} {ops : List Op}

theorem run_concat : b.run (ops ++ [op]) = (b.run ops).apply op := by
  rw [run, List.foldl_append]
  rfl

theorem outcomes_concat : b.outcomes (ops ++ [op]) = b.outcomes ops ++ (b.run ops).outcome op := by
  induction ops generalizing b with
  | nil => exact List.append_nil _
  | cons op' ops ih =>
    rw [List.cons_append, outcomes_cons, outcomes_cons, ih, List.append_assoc]
    rfl

end TokenBucket

namespace Sharing

/-- What became of an attempt at its limiter, in the order of the attempts. -/
structure Verdict where
  /-- The number of the bundle, counted in the order of dialing. -/
  bundle : Nat
  time : Instant
  admitted : Bool

variable {own : Nat → Prop} {bs : List Bundle} {b b' : Bundle} {log : List Verdict}
  {i j : Nat} {l l' : Limiter} {u v w w₀ : World}

/-- What may happen from a first world on, to the bundles dialed so far and the verdicts so far.
Nobody but its own limiter has the bucket at an owned place. -/
inductive Run (own : Nat → Prop) (w₀ : World) : List Bundle → List Verdict → World → Prop
  | start : Run own w₀ [] [] w₀
  /-- Time passes, calls go on between their attempts, or anything else happens. -/
  | other {bs : List Bundle} {log : List Verdict} {w v : World} (past : Run own w₀ bs log w)
      (spares : Spares own w v) : Run own w₀ bs log v
  /-- A configuration is dialed, a new one or one that was dialed before. -/
  | dial {bs : List Bundle} {log : List Verdict} {w v : World} {b : Bundle}
      (past : Run own w₀ bs log w) (dialed : b.Dialed w v)
      (owned : ∀ l, b.limiter = some l → own l.place) : Run own w₀ (bs ++ [b]) log v
  /-- A client of a bundle makes an attempt. -/
  | attempt {bs : List Bundle} {log : List Verdict} {w : World} {b : Bundle} {i : Nat}
      (past : Run own w₀ bs log w) (member : bs[i]? = some b) (t : Transport) (request : Request)
      (inner : ∀ request u, Spares own u (b.inner t request u).2) :
      Run own w₀ bs (log ++ [⟨i, w.clock, (b.acquire w).1⟩]) (b.attempt t request w).2

/-- The verdicts on the attempts of one bundle. -/
def group (i : Nat) (log : List Verdict) : List Verdict := log.filter (·.bundle == i)

/-- What the attempts of one bundle do to a bucket. -/
def ops (i : Nat) (log : List Verdict) : List TokenBucket.Op :=
  (group i log).map fun verdict => .acquire verdict.time

/-- What the verdicts so far have to do with the bundles and the world: the bucket of a bundle is
the one it was made with, after the attempts of that bundle. -/
structure Consistent (own : Nat → Prop) (bs : List Bundle) (log : List Verdict) (w : World) :
    Prop where
  dialed : ∀ (i : Nat) (b : Bundle), bs[i]? = some b → ∃ u v, b.Dialed u v
  owned : ∀ (i : Nat) (b : Bundle), bs[i]? = some b → ∀ l, b.limiter = some l → own l.place
  apart : ∀ (i j : Nat) (b b' : Bundle) (l l' : Limiter), bs[i]? = some b → bs[j]? = some b' →
    b.limiter = some l → b'.limiter = some l' → l.place = l'.place → i = j
  numbered : ∀ verdict ∈ log, verdict.bundle < bs.length
  bucket : ∀ (i : Nat) (b : Bundle) (l : Limiter), bs[i]? = some b → b.limiter = some l →
    w.buckets[l.place]? = some (b.fresh.run (ops i log))
  verdicts : ∀ (i : Nat) (b : Bundle), bs[i]? = some b →
    (group i log).map Verdict.admitted = b.fresh.outcomes (ops i log)

theorem group_concat_self (log : List Verdict) (i : Nat) (time : Instant) (admitted : Bool) :
    group i (log ++ [⟨i, time, admitted⟩]) = group i log ++ [⟨i, time, admitted⟩] := by
  simp [group]

theorem group_concat_ne (h : j ≠ i) (log : List Verdict) (time : Instant) (admitted : Bool) :
    group i (log ++ [⟨j, time, admitted⟩]) = group i log := by
  simp [group, h]

theorem of_getElem?_concat (h : (bs ++ [b])[i]? = some b') :
    bs[i]? = some b' ∨ i = bs.length ∧ b' = b := by
  rcases Nat.lt_trichotomy i bs.length with hi | rfl | hi
  · rw [List.getElem?_append_left hi] at h
    exact Or.inl h
  · rw [List.getElem?_concat_length] at h
    exact Or.inr ⟨rfl, (Option.some.inj h).symm⟩
  · rw [List.getElem?_eq_none (by simp; omega)] at h
    cases h

theorem group_eq_nil (h : ∀ verdict ∈ log, verdict.bundle < i) : group i log = [] := by
  refine List.filter_eq_nil_iff.mpr fun verdict hmem heq => ?_
  exact Nat.ne_of_lt (h verdict hmem) (eq_of_beq heq)

namespace Consistent

theorem limits (h : Consistent own bs log w) (hb : bs[i]? = some b) (l : Limiter)
    (hl : b.limiter = some l) : l.isUnlimited = false := by
  obtain ⟨u, v, hdialed⟩ := h.dialed i b hb
  exact hdialed.limits hl

theorem start (own : Nat → Prop) (w : World) : Consistent own [] [] w where
  dialed _ _ h := by cases h
  owned _ _ h := by cases h
  apart _ _ _ _ _ _ h := by cases h
  numbered _ h := by cases h
  bucket _ _ _ h := by cases h
  verdicts _ _ h := by cases h

theorem other (h : Consistent own bs log w) (hs : Spares own w v) : Consistent own bs log v where
  dialed := h.dialed
  owned := h.owned
  apart := h.apart
  numbered := h.numbered
  bucket i b l hb hl := (hs _ (h.owned i b hb l hl)).trans (h.bucket i b l hb hl)
  verdicts := h.verdicts

/-- A new bucket stands behind all others. -/
theorem place_lt (h : Consistent own bs log w) (hb : bs[i]? = some b) (hl : b.limiter = some l) :
    l.place < w.buckets.length :=
  (List.getElem?_eq_some_iff.mp (h.bucket i b l hb hl)).1

theorem dial (h : Consistent own bs log w) (hd : b.Dialed w v)
    (howned : ∀ l, b.limiter = some l → own l.place) : Consistent own (bs ++ [b]) log v := by
  have hempty : group bs.length log = [] := group_eq_nil h.numbered
  have hops : ops bs.length log = [] := by rw [ops, hempty, List.map_nil]
  refine ⟨?dialed, ?owned, ?apart, ?numbered, ?bucket, ?verdicts⟩
  case dialed =>
    intro i b' hb'
    rcases of_getElem?_concat hb' with hold | ⟨-, rfl⟩
    · exact h.dialed i b' hold
    · exact ⟨w, v, hd⟩
  case owned =>
    intro i b' hb'
    rcases of_getElem?_concat hb' with hold | ⟨-, rfl⟩
    · exact h.owned i b' hold
    · exact howned
  case apart =>
    intro i j b₁ b₂ l₁ l₂ h₁ h₂ hl₁ hl₂ hplace
    rcases of_getElem?_concat h₁ with hold₁ | ⟨rfl, rfl⟩
    · rcases of_getElem?_concat h₂ with hold₂ | ⟨rfl, rfl⟩
      · exact h.apart i j b₁ b₂ l₁ l₂ hold₁ hold₂ hl₁ hl₂ hplace
      · have hlt := h.place_lt hold₁ hl₁
        have hnew := (hd.of_some hl₂).1
        omega
    · rcases of_getElem?_concat h₂ with hold₂ | ⟨rfl, -⟩
      · have hlt := h.place_lt hold₂ hl₂
        have hnew := (hd.of_some hl₁).1
        omega
      · rfl
  case numbered =>
    intro verdict hmem
    have hlt := h.numbered verdict hmem
    rw [List.length_append]
    omega
  case bucket =>
    intro i b' l hb' hl
    rcases of_getElem?_concat hb' with hold | ⟨rfl, rfl⟩
    · have hbucket := h.bucket i b' l hold hl
      cases hnew : b.limiter with
      | none => rwa [hd.of_none hnew]
      | some l' =>
        rw [(hd.of_some hnew).2, List.getElem?_append_left (h.place_lt hold hl)]
        exact hbucket
    · obtain ⟨hplace, hbuckets⟩ := hd.of_some hl
      rw [hops, hbuckets, hplace]
      exact List.getElem?_concat_length
  case verdicts =>
    intro i b' hb'
    rcases of_getElem?_concat hb' with hold | ⟨rfl, rfl⟩
    · exact h.verdicts i b' hold
    · rw [hops, hempty]
      rfl

/-- The bucket of the bundle alone says what becomes of an attempt. -/
theorem asked (h : Consistent own bs log w) (hb : bs[i]? = some b) :
    (b.acquire w).1 = ((b.fresh.run (ops i log)).tryAcquire w.clock).1 := by
  cases hl : b.limiter with
  | none =>
    obtain ⟨u, v, hdialed⟩ := h.dialed i b hb
    have hunlimited : (b.fresh.run (ops i log)).isUnlimited = true := by
      rw [TokenBucket.isUnlimited, (TokenBucket.rate_capacity_run _ _).1]
      exact hdialed.unlimited hl
    rw [Bundle.acquire_of_none hl, TokenBucket.tryAcquire_of_unlimited hunlimited]
  | some l => rw [Bundle.acquire_of_some hl, Pipeline.acquire_eq (h.bucket i b l hb hl)]

/-- Asking the limiter of a bundle is an attempt on its bucket, and no other bundle sees it. -/
theorem acquire (h : Consistent own bs log w) (hb : bs[i]? = some b) :
    Consistent own bs (log ++ [⟨i, w.clock, (b.acquire w).1⟩]) (b.acquire w).2 := by
  have hops : ops i (log ++ [⟨i, w.clock, (b.acquire w).1⟩]) =
      ops i log ++ [.acquire w.clock] := by
    rw [ops, group_concat_self, List.map_append]
    rfl
  refine ⟨h.dialed, h.owned, h.apart, ?numbered, ?bucket, ?verdicts⟩
  case numbered =>
    intro verdict hmem
    rcases List.mem_append.mp hmem with hold | hnew
    · exact h.numbered verdict hold
    · rw [List.mem_singleton.mp hnew]
      exact (List.getElem?_eq_some_iff.mp hb).1
  case bucket =>
    intro j b' l' hb' hl'
    have hbucket := h.bucket j b' l' hb' hl'
    by_cases hji : j = i
    · subst hji
      obtain rfl : b = b' := Option.some.inj (hb.symm.trans hb')
      rw [hops, TokenBucket.run_concat, Bundle.acquire_of_some hl', Pipeline.acquire_eq hbucket]
      exact List.getElem?_set_self (h.place_lt hb' hl')
    · have hapart : ∀ l, b.limiter = some l → l.place ≠ l'.place := by
        intro l hl hplace
        exact hji (h.apart i j b b' l l' hb hb' hl hl' hplace).symm
      rw [ops, group_concat_ne (Ne.symm hji), b.acquire_apart hapart]
      exact hbucket
  case verdicts =>
    intro j b' hb'
    have hverdicts := h.verdicts j b' hb'
    by_cases hji : j = i
    · subst hji
      obtain rfl : b = b' := Option.some.inj (hb.symm.trans hb')
      rw [hops, TokenBucket.outcomes_concat, ← hverdicts, group_concat_self, List.map_append,
        h.asked hb]
      rfl
    · rw [ops, group_concat_ne (Ne.symm hji)]
      exact hverdicts

theorem attempt {t : Transport} {request : Request} (h : Consistent own bs log w)
    (hb : bs[i]? = some b) (hinner : ∀ request u, Spares own u (b.inner t request u).2) :
    Consistent own bs (log ++ [⟨i, w.clock, (b.acquire w).1⟩]) (b.attempt t request w).2 :=
  (h.acquire hb).other (Bundle.spares_attempt (h.limits hb) hinner request w)

end Consistent

/-- Whatever has happened, the bucket of each bundle has seen the attempts of its own clients. -/
theorem Run.consistent (h : Run own w₀ bs log w) : Consistent own bs log w := by
  induction h with
  | start => exact .start own w₀
  | other _ spares ih => exact ih.other spares
  | dial _ dialed owned ih => exact ih.dial dialed owned
  | attempt _ member t request inner ih => exact ih.attempt member inner

/-- When attempts were made, and through which bundles. -/
def order (log : List Verdict) : List (Nat × Instant) :=
  log.map fun verdict => (verdict.bundle, verdict.time)

/-- What a bucket gets depends on the order of the attempts alone. -/
theorem ops_eq (i : Nat) (log : List Verdict) :
    ops i log = ((order log).filter (·.1 == i)).map fun attempt => .acquire attempt.2 := by
  simp [ops, group, order, List.filter_map, Function.comp_def]

/-- The attempts may come in every order and at any instants. -/
theorem Run.exists_order (h : Run own w₀ bs log w) (t : Transport) (request : Request)
    (hinner : ∀ b ∈ bs, ∀ request u, Spares own u (b.inner t request u).2)
    (attempts : List (Nat × Instant)) (hbs : ∀ attempt ∈ attempts, attempt.1 < bs.length) :
    ∃ more v, Run own w₀ bs (log ++ more) v ∧ order more = attempts := by
  induction attempts generalizing log w with
  | nil => exact ⟨[], w, by rwa [List.append_nil], rfl⟩
  | cons attempt attempts ih =>
    obtain ⟨i, time⟩ := attempt
    have hi : i < bs.length := hbs _ (List.mem_cons_self ..)
    have hclock : Run own w₀ bs log { w with clock := time } := h.other fun _ _ => rfl
    obtain ⟨admitted, w', hrun⟩ :
        ∃ admitted w', Run own w₀ bs (log ++ [⟨i, time, admitted⟩]) w' :=
      ⟨_, _, hclock.attempt (List.getElem?_eq_getElem hi) t request
        (hinner _ (List.getElem_mem hi))⟩
    obtain ⟨more, v, hmore, horder⟩ := ih hrun fun attempt hmem =>
      hbs attempt (List.mem_cons_of_mem _ hmem)
    refine ⟨⟨i, time, admitted⟩ :: more, v, ?_, ?_⟩
    · rw [List.append_assoc] at hmore
      exact hmore
    · rw [← horder]
      rfl

end Sharing

end RpcPolicy
