import Mathlib.Data.List.Nodup
import RpcPolicy.Proofs.Config.RoundTrip
/-! Records in documents as tables of fields, each with a key of its own. Main statement: what is
read at a key depends neither on the order of the members nor on those under other keys. -/

namespace RpcPolicy

namespace Json

section Reading

variable {α : Type} {members more : List (JsonText × Json)} {key : String}
  {read : Json → Option α} {absent : α}

/-- Only the members under a key have a part in what is read at it. -/
theorem field?_congr (h : under members key = under more key) :
    field? members key read absent = field? more key read absent := by
  unfold under at h
  simp only [field?, member?, h]

/-- A key that does not stand leaves the default. -/
theorem field?_absent (h : under members key = []) :
    field? members key read absent = some absent := by
  unfold under at h
  simp [field?, member?, h]

/-- A key that stands twice cannot be read. -/
theorem field?_repeated (h : 2 ≤ (under members key).length) :
    field? members key read absent = none := by
  unfold under at h
  match hunder : members.filter fun m => m.1 = some key with
  | [] => simp [hunder] at h
  | [m] => simp [hunder] at h
  | m :: n :: rest => simp [field?, member?, hunder]

end Reading

/-! ### Fields -/

/-- A field of a record in documents: its key, how its values are read, and its place. -/
structure Field (σ : Type) where
  key : String
  Value : Type
  read : Json → Option Value
  get : σ → Value
  set : Value → σ → σ

namespace Field

variable {σ : Type}

/-- The keys of some fields. -/
def keys (fields : List (Field σ)) : List String :=
  fields.map Field.key

/-- Fields with different keys and different places. -/
structure Separate (fields : List (Field σ)) : Prop where
  keys : (keys fields).Nodup
  get_set : ∀ f ∈ fields, ∀ v c, f.get (f.set v c) = v
  get_set_other : ∀ f ∈ fields, ∀ g ∈ fields, f.key ≠ g.key → ∀ v c, f.get (g.set v c) = f.get c

/-- The value of a field of a record is the one that members give, or its default. -/
def Reads (f : Field σ) (members : List (JsonText × Json)) (standard c : σ) : Prop :=
  Json.field? members f.key f.read (f.get standard) = some (f.get c)

variable {fields : List (Field σ)} {f g : Field σ}

theorem Separate.eq_of_key (h : Separate fields) (hf : f ∈ fields) (hg : g ∈ fields)
    (hkey : f.key = g.key) : f = g :=
  List.inj_on_of_nodup_map h.keys hf hg hkey

end Field

/-- A known field with a value that is read for it. -/
structure Setting {σ : Type} (fields : List (Field σ)) where
  field : Field σ
  known : field ∈ fields
  json : Json
  value : field.Value
  reads : field.read json = some value

namespace Setting

variable {σ : Type} {fields : List (Field σ)}

def key (s : Setting fields) : String := s.field.key

/-- The member of a document. -/
def member (s : Setting fields) : JsonText × Json := (some s.key, s.json)

/-- A record with the values of some settings in their fields. -/
def replaced (settings : List (Setting fields)) (c : σ) : σ :=
  settings.foldl (fun c s => s.field.set s.value c) c

/-- The members of some settings in order, among members with unknown keys and ignored values. -/
inductive Interspersed (Ignored : Json → Prop) :
    List (Setting fields) → List (JsonText × Json) → Prop
  | nil : Interspersed Ignored [] []
  | known {settings : List (Setting fields)} {members : List (JsonText × Json)}
      (s : Setting fields) (rest : Interspersed Ignored settings members) :
      Interspersed Ignored (s :: settings) (s.member :: members)
  | unknown {settings : List (Setting fields)} {members : List (JsonText × Json)} {name : String}
      {j : Json} (other : name ∉ Field.keys fields) (ignored : Ignored j)
      (rest : Interspersed Ignored settings members) :
      Interspersed Ignored settings ((some name, j) :: members)

variable {settings order : List (Setting fields)} {members : List (JsonText × Json)}
  {s : Setting fields} {f : Field σ} {key : String} {c : σ} {Ignored : Json → Prop}

/-! ### Members -/

theorem Interspersed.under (h : Interspersed Ignored settings members)
    (hkey : key ∈ Field.keys fields) :
    Json.under members key = Json.under (settings.map member) key := by
  induction h with
  | nil => rfl
  | known s _ ih => rw [List.map_cons, member, Json.under_cons, Json.under_cons, ih]
  | @unknown _ _ name j other _ _ ih =>
    have hne : name ≠ key := fun heq => other (heq ▸ hkey)
    rw [Json.under_cons, if_neg hne, ih]

/-- Every member is that of a setting or is ignored. -/
theorem Interspersed.mem_cases (h : Interspersed Ignored settings members) {m : JsonText × Json}
    (hm : m ∈ members) :
    (∃ s ∈ settings, m = s.member) ∨
      ∃ name j, m = (some name, j) ∧ name ∉ Field.keys fields ∧ Ignored j := by
  induction h with
  | nil => cases hm
  | known s _ ih =>
    rcases List.mem_cons.mp hm with rfl | hm
    · exact Or.inl ⟨s, List.mem_cons_self .., rfl⟩
    · exact (ih hm).imp_left fun ⟨t, ht, heq⟩ => ⟨t, List.mem_cons_of_mem s ht, heq⟩
  | @unknown _ _ name j other ignored _ ih =>
    rcases List.mem_cons.mp hm with rfl | hm
    · exact Or.inr ⟨name, j, rfl, other, ignored⟩
    · exact ih hm

theorem Interspersed.namesSound (h : Interspersed Ignored settings members) :
    Json.namesSound members = true := by
  rw [Json.namesSound, List.all_eq_true]
  intro m hm
  rcases h.mem_cases hm with ⟨s, -, rfl⟩ | ⟨name, j, rfl, -⟩
  · rfl
  · rfl

theorem under_of_not_mem (h : key ∉ settings.map Setting.key) :
    Json.under (settings.map member) key = [] := by
  unfold Json.under
  rw [List.filter_eq_nil_iff]
  intro m hm
  obtain ⟨s, hs, rfl⟩ := List.mem_map.mp hm
  have hne : s.key ≠ key := fun heq => h (List.mem_map.mpr ⟨s, hs, heq⟩)
  simpa [member] using hne

theorem under_of_mem (hdistinct : (settings.map Setting.key).Nodup) (hs : s ∈ settings) :
    Json.under (settings.map member) s.key = [s.member] := by
  induction settings with
  | nil => cases hs
  | cons t settings ih =>
    obtain ⟨hnot, hdistinct⟩ := List.nodup_cons.mp hdistinct
    rw [List.map_cons, member, Json.under_cons]
    rcases List.mem_cons.mp hs with rfl | hs
    · rw [if_pos rfl, under_of_not_mem hnot, member]
    · have hne : t.key ≠ s.key := fun heq => hnot (heq ▸ List.mem_map_of_mem hs)
      rw [if_neg hne, ih hdistinct hs]

/-! ### Records -/

section Separate

variable (h : Field.Separate fields)

include h

theorem get_replaced_of_not_mem (hf : f ∈ fields) (hnot : f.key ∉ settings.map Setting.key) :
    f.get (replaced settings c) = f.get c := by
  induction settings generalizing c with
  | nil => rfl
  | cons s settings ih =>
    obtain ⟨hne, hnot⟩ := List.ne_and_not_mem_of_not_mem_cons hnot
    calc f.get (replaced settings (s.field.set s.value c))
        = f.get (s.field.set s.value c) := ih hnot
      _ = f.get c := h.get_set_other f hf s.field s.known hne s.value c

theorem get_replaced_of_mem (hdistinct : (settings.map Setting.key).Nodup) (hs : s ∈ settings) :
    s.field.get (replaced settings c) = s.value := by
  induction settings generalizing c with
  | nil => cases hs
  | cons t settings ih =>
    obtain ⟨hnot, hdistinct⟩ := List.nodup_cons.mp hdistinct
    rcases List.mem_cons.mp hs with rfl | hs
    · calc s.field.get (replaced settings (s.field.set s.value c))
          = s.field.get (s.field.set s.value c) := get_replaced_of_not_mem h s.known hnot
        _ = s.value := h.get_set s.field s.known s.value c
    · exact ih hdistinct hs

/-- At every key the value of its setting is read, or the default if it has none. -/
theorem Interspersed.reads (hmembers : Interspersed Ignored order members)
    (hdistinct : (settings.map Setting.key).Nodup) (horder : order.Perm settings)
    (hf : f ∈ fields) : f.Reads members c (replaced settings c) := by
  have hkey : f.key ∈ Field.keys fields := List.mem_map_of_mem hf
  have hunder := hmembers.under hkey
  have hkeys : (order.map Setting.key).Perm (settings.map Setting.key) := horder.map _
  unfold Field.Reads
  -- A key that has a setting stands once, and any other key not at all.
  by_cases hlisted : f.key ∈ settings.map Setting.key
  · obtain ⟨s, hs, heq⟩ := List.mem_map.mp hlisted
    obtain rfl : s.field = f := h.eq_of_key s.known hf heq
    have honce := under_of_mem (hkeys.nodup_iff.mpr hdistinct) (horder.mem_iff.mpr hs)
    rw [Json.field?_once (hunder.trans honce), s.reads, get_replaced_of_mem h hdistinct hs]
  · have hnone := under_of_not_mem fun hmem => hlisted (hkeys.mem_iff.mp hmem)
    rw [Json.field?_absent (hunder.trans hnone), get_replaced_of_not_mem h hf hlisted]

end Separate

end Setting

/-! ### Documents with some of the fields -/

open Setting (Interspersed replaced)

/-- Documents with some fields of a record, in any order and among ignored members, give the
standard record with these fields set. A document that repeats a field gives nothing. -/
structure ReadsPartially {σ : Type} (fields : List (Field σ)) (standard : σ)
    (Ignored : Json → Prop) (ofJson? : Json → Option σ) : Prop where
  listed : ∀ settings : List (Setting fields), (settings.map Setting.key).Nodup →
    ∀ order members, order.Perm settings → Interspersed Ignored order members →
      ofJson? (.object members) = some (replaced settings standard)
  set : ∀ settings : List (Setting fields), (settings.map Setting.key).Nodup →
    ∀ s ∈ settings, s.field.get (replaced settings standard) = s.value
  kept : ∀ settings : List (Setting fields), ∀ f ∈ fields, f.key ∉ settings.map Setting.key →
    f.get (replaced settings standard) = f.get standard
  repeated : ∀ members, ∀ key ∈ Field.keys fields, 2 ≤ (Json.under members key).length →
    ofJson? (.object members) = none

/-- A record that is read field by field out of those objects that are admitted. -/
theorem readsPartially_of_object {σ : Type} {fields : List (Field σ)} {standard : σ}
    {Ignored : Json → Prop} {ofJson? : Json → Option σ} {Admits : List (JsonText × Json) → Prop}
    (hsep : Field.Separate fields)
    (hobject : ∀ members c, ofJson? (.object members) = some c ↔
      Admits members ∧ ∀ f ∈ fields, f.Reads members standard c)
    (hadmits : ∀ (order : List (Setting fields)) members, Interspersed Ignored order members →
      Admits members) :
    ReadsPartially fields standard Ignored ofJson? := by
  refine ⟨?listed, ?set, ?kept, ?repeated⟩
  case listed =>
    intro settings hdistinct order members horder hmembers
    exact (hobject members _).mpr ⟨hadmits order members hmembers,
      fun f hf => hmembers.reads hsep hdistinct horder hf⟩
  case set => exact fun settings hdistinct s hs => Setting.get_replaced_of_mem hsep hdistinct hs
  case kept => exact fun settings f hf hnot => Setting.get_replaced_of_not_mem hsep hf hnot
  case repeated =>
    intro members key hkey htwice
    obtain ⟨f, hf, rfl⟩ := List.mem_map.mp hkey
    cases hread : ofJson? (.object members) with
    | none => rfl
    | some c =>
      have hsome := ((hobject members c).mp hread).2 f hf
      exact absurd (hsome.symm.trans (Json.field?_repeated htwice)) (Option.some_ne_none _)

end Json

end RpcPolicy
