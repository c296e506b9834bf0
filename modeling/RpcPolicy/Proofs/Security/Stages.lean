import RpcPolicy.Security.Resolution
/-! Resolutions that go through stages, each of which may open a file and may fail. Main statement:
a composed resolution goes through the stages of its parts. -/

namespace RpcPolicy

/-- The file that was opened. -/
def Notice.file? : Notice → Option String
  | .opened path => some path
  | .unverified => none

namespace Resolution

variable {α β : Type} {r : Resolution α} {k : α → Resolution β} {a : α} {e : SecurityError}

/-- The files that were opened, in order. -/
def files (r : Resolution α) : List String := r.notices.filterMap Notice.file?

/-- Why there is no result. -/
def failure? (r : Resolution α) : Option SecurityError :=
  match r.outcome with
  | .error e => some e
  | .ok _ => none

/-! ### Failures and files of composed resolutions -/

theorem failure?_eq_none : r.failure? = none ↔ ∃ a, r.outcome = .ok a := by
  unfold failure?
  cases r.outcome <;> simp

theorem bind_of_error (h : r.outcome = .error e) : r.bind k = ⟨.error e, r.notices⟩ := by
  simp only [bind, h]

theorem bind_of_ok (h : r.outcome = .ok a) :
    r.bind k = ⟨(k a).outcome, r.notices ++ (k a).notices⟩ := by
  simp only [bind, h]

theorem files_bind_of_ok (h : r.outcome = .ok a) : (r.bind k).files = r.files ++ (k a).files := by
  rw [bind_of_ok h, files, List.filterMap_append]
  rfl

theorem failure?_bind_of_ok (h : r.outcome = .ok a) : (r.bind k).failure? = (k a).failure? := by
  rw [bind_of_ok h]
  rfl

theorem outcome_bind_eq_ok {b : β} :
    (r.bind k).outcome = .ok b ↔ ∃ a, r.outcome = .ok a ∧ (k a).outcome = .ok b := by
  unfold bind
  cases r.outcome <;> simp

/-! ### Stages -/

/-- A stage of a resolution: the file it opens, if it opens one, and how it may fail. -/
structure Stage where
  file : Option String
  Fails : SecurityError → Prop

/-- The files that some stages open, in order and up to the first stage that fails, and its
failure. -/
inductive Passes : List Stage → List String → Option SecurityError → Prop
  | nil : Passes [] [] none
  | failed {s : Stage} {e : SecurityError} (rest : List Stage) (fails : s.Fails e) :
      Passes (s :: rest) s.file.toList (some e)
  | passed {s : Stage} {rest : List Stage} {files : List String} {last : Option SecurityError}
      (passes : ∀ e, ¬ s.Fails e) (later : Passes rest files last) :
      Passes (s :: rest) (s.file.toList ++ files) last

/-- A resolution that goes through stages. -/
def Through (r : Resolution α) (stages : List Stage) : Prop :=
  Passes stages r.files r.failure?

variable {stages more : List Stage} {files later : List String} {last : Option SecurityError}

theorem Passes.append (h : Passes stages files none) (h' : Passes more later last) :
    Passes (stages ++ more) (files ++ later) last := by
  generalize hnone : (none : Option SecurityError) = failure at h
  induction h with
  | nil => exact h'
  | failed rest fails => cases hnone
  | passed passes _ ih =>
    rw [List.append_assoc]
    exact .passed passes (ih hnone)

theorem Passes.stopped (h : Passes stages files (some e)) (more : List Stage) :
    Passes (stages ++ more) files (some e) := by
  generalize hsome : some e = failure at h ⊢
  induction h with
  | nil => cases hsome
  | failed rest fails => exact .failed (rest ++ more) fails
  | passed passes _ ih => exact .passed passes (ih hsome)

theorem Passes.mem_files (h : Passes stages files last) {path : String} (hpath : path ∈ files) :
    ∃ s ∈ stages, s.file = some path := by
  induction h with
  | nil => cases hpath
  | failed rest fails => exact ⟨_, List.mem_cons_self .., Option.mem_toList.mp hpath⟩
  | passed _ _ ih =>
    rcases List.mem_append.mp hpath with hfile | hlater
    · exact ⟨_, List.mem_cons_self .., Option.mem_toList.mp hfile⟩
    · obtain ⟨s, hs, hfile⟩ := ih hlater
      exact ⟨s, List.mem_cons_of_mem _ hs, hfile⟩

theorem through_ok (a : α) : (ok a).Through [] := .nil

/-- One stage, which opens its file and then fails or has a result. -/
theorem through_stage {s : Stage} (hfiles : r.files = s.file.toList)
    (h : (∃ e, r.outcome = .error e ∧ s.Fails e) ∨
      ∃ a, r.outcome = .ok a ∧ ∀ e, ¬ s.Fails e) : r.Through [s] := by
  unfold Through
  rw [hfiles]
  rcases h with ⟨e, hr, hfails⟩ | ⟨a, hr, hpasses⟩
  · have hfailure : r.failure? = some e := by simp only [failure?, hr]
    rw [hfailure]
    exact .failed [] hfails
  · have hpassed := Passes.passed hpasses .nil
    rw [List.append_nil] at hpassed
    rw [failure?_eq_none.mpr ⟨a, hr⟩]
    exact hpassed

theorem Through.bind (h : r.Through stages)
    (hk : ∀ a, r.outcome = .ok a → (k a).Through more) : (r.bind k).Through (stages ++ more) := by
  unfold Through at h ⊢
  cases hr : r.outcome with
  | error e =>
    have hfailure : r.failure? = some e := by simp only [failure?, hr]
    rw [hfailure] at h
    rw [bind_of_error hr]
    exact h.stopped more
  | ok a =>
    have hfailure : r.failure? = none := failure?_eq_none.mpr ⟨a, hr⟩
    rw [hfailure] at h
    rw [files_bind_of_ok hr, failure?_bind_of_ok hr]
    exact h.append (hk a hr)

/-- What is made of a result opens no file and cannot fail. -/
theorem Through.bind_ok (h : r.Through stages) (f : α → β) :
    (r.bind fun a => ok (f a)).Through stages := by
  have hall := h.bind fun a _ => through_ok (f a)
  rwa [List.append_nil] at hall

end Resolution

end RpcPolicy
