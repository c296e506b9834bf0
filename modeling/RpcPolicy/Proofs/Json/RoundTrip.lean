import RpcPolicy.Proofs.Json.Words
/-! Whole documents. Main statements: what configurations ask of a library that writes documents
and reads them back, and that the exact one grants it. -/

namespace RpcPolicy.Json

/-- A value whose numerals hold digits and whose texts are sound. -/
inductive Written : Json → Prop
  | null : Written .null
  | bool (b : Bool) : Written (.bool b)
  | number {n : Numeral} (digital : n.Digital) : Written (.number n)
  | text (s : String) : Written (.text s)
  | array {items : List Json} (values : ∀ j ∈ items, Written j) : Written (.array items)
  | object {members : List (JsonText × Json)} (names : ∀ m ∈ members, m.1.isSome = true)
      (values : ∀ m ∈ members, Written m.2) : Written (.object members)

namespace Reader

open Decimal (isDigit_toDigits)

variable {c : Char} {rest : List Char}

/-! ### What a value begins with -/

theorem skipBlanks_cons (h : isBlank c = false) (rest : List Char) :
    skipBlanks (c :: rest) = c :: rest := by
  simp [skipBlanks, h]

/-- The first character of a numeral tells it from every other value. -/
theorem head_numeral (n : Numeral) :
    ∃ c cs, n.chars true = c :: cs ∧ (c = '-' ∨ c.isDigit = true) := by
  rw [chars_eq]
  cases n.negative with
  | true => exact ⟨_, _, rfl, Or.inl rfl⟩
  | false =>
    obtain ⟨d, ds, hds⟩ := List.exists_cons_of_ne_nil (Nat.toDigits_ne_nil (n := n.whole) (b := 10))
    have hdigit := isDigit_toDigits n.whole d (by rw [hds]; exact List.mem_cons_self ..)
    rw [hds]
    exact ⟨_, _, rfl, Or.inr hdigit⟩

/-- A value does not begin with a blank or a closing bracket. -/
theorem head_chars (j : Json) : ∃ c cs, j.chars = c :: cs ∧ isBlank c = false ∧ c ≠ ']' := by
  cases j with
  | null => exact ⟨_, _, rfl, by decide, by decide⟩
  | bool b => cases b <;> exact ⟨_, _, rfl, by decide, by decide⟩
  | number n =>
    obtain ⟨c, cs, hcs, hc⟩ := head_numeral n
    refine ⟨c, cs, by rw [chars, hcs], ?_, ?_⟩
    · rcases hc with rfl | hc
      · decide
      · simp only [isBlank, Bool.or_eq_false_iff, decide_eq_false_iff_not]
        refine ⟨⟨⟨?_, ?_⟩, ?_⟩, ?_⟩ <;> rintro rfl <;> cases hc
    · rintro rfl
      rcases hc with hc | hc <;> cases hc
  | string s => exact ⟨_, _, by rw [chars, stringChars]; rfl, by decide, by decide⟩
  | array items => exact ⟨_, _, by rw [chars]; rfl, by decide, by decide⟩
  | object members => exact ⟨_, _, by rw [chars]; rfl, by decide, by decide⟩

theorem endsNumeral_cons (h : c = ',' ∨ c = ']' ∨ c = '\x7d') : EndsNumeral (c :: rest) := by
  rintro _ _ ⟨⟩
  rcases h with rfl | rfl | rfl <;> decide

theorem endsNumeral_nil : EndsNumeral [] := by
  rintro _ _ ⟨⟩

/-! ### One value -/

variable {fuel : Nat}

theorem value?_numeral {n : Numeral} (hn : n.Digital) (hr : EndsNumeral rest) :
    value? (fuel + 1) (n.chars true ++ rest) = some (.number n, rest) := by
  have hread := numeral?_chars hn hr
  obtain ⟨c, cs, hcs, hc⟩ := head_numeral n
  rw [hcs] at hread ⊢
  rw [List.cons_append] at hread ⊢
  rw [value?.eq_def]
  simp only
  -- No other kind of value begins like a numeral.
  split <;> simp_all

theorem value?_string (s : String) (rest : List Char) :
    value? (fuel + 1) (stringChars (some s) ++ rest) = some (.text s, rest) := by
  have hread := string?_chars s rest
  simp only [stringChars, Option.getD_some, List.cons_append, List.append_assoc, List.nil_append,
    value?, hread, Option.map_some]
  rfl

theorem head_items {items : List Json} (hne : items ≠ []) (rest : List Char) :
    ∃ c cs, itemChars items ++ rest = c :: cs ∧ isBlank c = false ∧ c ≠ ']' := by
  match items, hne with
  | [j], _ =>
    obtain ⟨c, cs, hcs, hc⟩ := head_chars j
    exact ⟨c, cs ++ rest, by simp [itemChars, hcs], hc⟩
  | j :: k :: items, _ =>
    obtain ⟨c, cs, hcs, hc⟩ := head_chars j
    exact ⟨c, cs ++ ',' :: itemChars (k :: items) ++ rest, by simp [itemChars, hcs], hc⟩

theorem head_members {members : List (JsonText × Json)} (hne : members ≠ []) (rest : List Char) :
    ∃ cs, memberChars members ++ rest = '"' :: cs := by
  match members, hne with
  | [(name, j)], _ =>
    simp only [memberChars, stringChars, List.cons_append]
    exact ⟨_, rfl⟩
  | (name, j) :: m :: members, _ =>
    simp only [memberChars, stringChars, List.cons_append]
    exact ⟨_, rfl⟩

theorem value?_array {items : List Json} (hne : items ≠ [])
    (h : items? fuel (itemChars items ++ ']' :: rest) = some (items, rest)) :
    value? (fuel + 1) (chars (.array items) ++ rest) = some (.array items, rest) := by
  obtain ⟨c, cs, hcs, hblank, hclose⟩ := head_items hne (']' :: rest)
  simp only [chars, List.cons_append, List.append_assoc, List.nil_append, value?]
  rw [hcs] at h ⊢
  rw [skipBlanks_cons hblank]
  split
  · simp_all
  · rw [h]
    rfl

theorem value?_object {members : List (JsonText × Json)} (hne : members ≠ [])
    (h : members? fuel (memberChars members ++ '\x7d' :: rest) = some (members, rest)) :
    value? (fuel + 1) (chars (.object members) ++ rest) = some (.object members, rest) := by
  obtain ⟨cs, hcs⟩ := head_members hne ('\x7d' :: rest)
  simp only [chars, List.cons_append, List.append_assoc, List.nil_append, value?]
  rw [hcs] at h ⊢
  rw [skipBlanks_cons (by decide)]
  change (members? fuel ('"' :: cs)).map _ = _
  rw [h]
  rfl

/-! ### Lists of values -/

theorem items?_last {j : Json} (h : value? fuel (j.chars ++ ']' :: rest) = some (j, ']' :: rest)) :
    items? (fuel + 1) (itemChars [j] ++ ']' :: rest) = some ([j], rest) := by
  have hclose : isBlank ']' = false := by decide
  simp only [itemChars, items?, h, Option.bind_some, skipBlanks_cons hclose]

theorem items?_cons {j : Json} {items : List Json} {cs : List Char} (hne : items ≠ [])
    (h : value? fuel (j.chars ++ ',' :: cs) = some (j, ',' :: cs))
    (hcs : cs = itemChars items ++ ']' :: rest) (hrest : items? fuel cs = some (items, rest)) :
    items? (fuel + 1) (itemChars (j :: items) ++ ']' :: rest) = some (j :: items, rest) := by
  have hcomma : isBlank ',' = false := by decide
  obtain ⟨c, ds, hds, hblank, -⟩ := head_items hne (']' :: rest)
  have hskip : skipBlanks cs = cs := by rw [hcs, hds, skipBlanks_cons hblank]
  have hchars : itemChars (j :: items) ++ ']' :: rest = j.chars ++ ',' :: cs := by
    obtain ⟨k, items, rfl⟩ := List.exists_cons_of_ne_nil hne
    simp [itemChars, hcs]
  simp only [hchars, items?, h, Option.bind_some, skipBlanks_cons hcomma, hskip, hrest,
    Option.map_some]

theorem skipBlanks_chars (j : Json) (cs : List Char) :
    skipBlanks (j.chars ++ cs) = j.chars ++ cs := by
  obtain ⟨c, ds, hds, hblank, -⟩ := head_chars j
  rw [hds, List.cons_append, skipBlanks_cons hblank]

theorem members?_last {name : String} {j : Json}
    (h : value? fuel (j.chars ++ '\x7d' :: rest) = some (j, '\x7d' :: rest)) :
    members? (fuel + 1) (memberChars [(some name, j)] ++ '\x7d' :: rest) =
      some ([(some name, j)], rest) := by
  have hcolon : isBlank ':' = false := by decide
  have hclose : isBlank '\x7d' = false := by decide
  have hread := string?_chars name (':' :: (j.chars ++ '\x7d' :: rest))
  simp only [memberChars, stringChars, Option.getD_some, List.cons_append, List.append_assoc,
    List.nil_append, members?, hread, Option.bind_some, skipBlanks_cons hcolon, skipBlanks_chars,
    h, skipBlanks_cons hclose]

theorem members?_cons {name : String} {j : Json} {members : List (JsonText × Json)}
    {cs : List Char} (hne : members ≠ [])
    (h : value? fuel (j.chars ++ ',' :: cs) = some (j, ',' :: cs))
    (hcs : cs = memberChars members ++ '\x7d' :: rest)
    (hrest : members? fuel cs = some (members, rest)) :
    members? (fuel + 1) (memberChars ((some name, j) :: members) ++ '\x7d' :: rest) =
      some ((some name, j) :: members, rest) := by
  have hcolon : isBlank ':' = false := by decide
  have hcomma : isBlank ',' = false := by decide
  have hread := string?_chars name (':' :: (j.chars ++ ',' :: cs))
  obtain ⟨ds, hds⟩ := head_members hne ('\x7d' :: rest)
  have hskip : skipBlanks cs = cs := by rw [hcs, hds, skipBlanks_cons (by decide)]
  have hchars : memberChars ((some name, j) :: members) ++ '\x7d' :: rest =
      stringChars (some name) ++ ':' :: (j.chars ++ ',' :: cs) := by
    obtain ⟨m, members, rfl⟩ := List.exists_cons_of_ne_nil hne
    simp [memberChars, hcs]
  simp only [hchars, stringChars, Option.getD_some, List.cons_append, List.append_assoc,
    List.nil_append, members?, hread, Option.bind_some, skipBlanks_cons hcolon, skipBlanks_chars,
    h, skipBlanks_cons hcomma, hskip, hrest, Option.map_some]

/-! ### Whole values -/

mutual

/-- A value that was written is read back, up to what follows it. -/
theorem value?_chars : ∀ (j : Json) (fuel : Nat) (rest : List Char), Written j →
    2 * j.chars.length ≤ fuel → EndsNumeral rest → value? fuel (j.chars ++ rest) = some (j, rest)
  | j, 0, _, _, hf, _ => by
    obtain ⟨c, cs, hcs, -⟩ := head_chars j
    rw [hcs, List.length_cons] at hf
    omega
  | .null, fuel + 1, rest, _, _, _ => by simp [chars, value?, word?]
  | .bool true, fuel + 1, rest, _, _, _ => by simp [chars, value?, word?]
  | .bool false, fuel + 1, rest, _, _, _ => by simp [chars, value?, word?]
  | .number n, fuel + 1, rest, hj, _, hr => by
    cases hj with
    | number hn => exact value?_numeral hn hr
  | .string s, fuel + 1, rest, hj, _, _ => by
    cases hj with
    | text s => exact value?_string s rest
  | .array [], fuel + 1, rest, _, _, _ => by
    simp [chars, itemChars, value?, skipBlanks, isBlank]
  | .array (j :: items), fuel + 1, rest, hj, hf, _ => by
    simp only [chars, List.length_cons, List.length_append, List.length_nil] at hf
    cases hj with
    | array hvalues =>
      have hitems := items?_chars (j :: items) fuel rest (List.cons_ne_nil j items) hvalues
        (by omega)
      exact value?_array (List.cons_ne_nil j items) hitems
  | .object [], fuel + 1, rest, _, _, _ => by
    simp [chars, memberChars, value?, skipBlanks, isBlank]
  | .object (m :: members), fuel + 1, rest, hj, hf, _ => by
    simp only [chars, List.length_cons, List.length_append, List.length_nil] at hf
    cases hj with
    | object hnames hvalues =>
      have hmembers := members?_chars (m :: members) fuel rest (List.cons_ne_nil m members)
        hnames hvalues (by omega)
      exact value?_object (List.cons_ne_nil m members) hmembers

theorem items?_chars : ∀ (items : List Json) (fuel : Nat) (rest : List Char), items ≠ [] →
    (∀ j ∈ items, Written j) → 2 * (itemChars items).length + 1 ≤ fuel →
    items? fuel (itemChars items ++ ']' :: rest) = some (items, rest)
  | [], _, _, hne, _, _ => absurd rfl hne
  | _ :: _, 0, _, _, _, hf => by omega
  | [j], fuel + 1, rest, _, hall, hf => by
    rw [itemChars] at hf
    have hvalue := value?_chars j fuel (']' :: rest) (hall j (List.mem_singleton_self j)) (by omega)
      (endsNumeral_cons (by simp))
    exact items?_last hvalue
  | j :: k :: items, fuel + 1, rest, _, hall, hf => by
    simp only [itemChars, List.length_append, List.length_cons] at hf
    have hvalue := value?_chars j fuel (',' :: (itemChars (k :: items) ++ ']' :: rest))
      (hall j (List.mem_cons_self ..)) (by omega) (endsNumeral_cons (by simp))
    have hrest := items?_chars (k :: items) fuel rest (List.cons_ne_nil k items)
      (fun i hi => hall i (List.mem_cons_of_mem j hi)) (by omega)
    exact items?_cons (List.cons_ne_nil k items) hvalue rfl hrest

theorem members?_chars : ∀ (members : List (JsonText × Json)) (fuel : Nat) (rest : List Char),
    members ≠ [] → (∀ m ∈ members, m.1.isSome = true) → (∀ m ∈ members, Written m.2) →
    2 * (memberChars members).length + 1 ≤ fuel →
    members? fuel (memberChars members ++ '\x7d' :: rest) = some (members, rest)
  | [], _, _, hne, _, _, _ => absurd rfl hne
  | _ :: _, 0, _, _, _, _, hf => by omega
  | [(none, j)], fuel + 1, rest, _, hnames, _, _ => by
    simpa using hnames _ (List.mem_singleton_self _)
  | [(some name, j)], fuel + 1, rest, _, _, hvalues, hf => by
    simp only [memberChars, List.length_append, List.length_cons] at hf
    have hvalue := value?_chars j fuel ('\x7d' :: rest) (hvalues _ (List.mem_singleton_self _))
      (by omega) (endsNumeral_cons (by simp))
    exact members?_last hvalue
  | (none, j) :: m :: members, fuel + 1, rest, _, hnames, _, _ => by
    simpa using hnames _ (List.mem_cons_self ..)
  | (some name, j) :: m :: members, fuel + 1, rest, _, hnames, hvalues, hf => by
    simp only [memberChars, List.length_append, List.length_cons] at hf
    have hvalue := value?_chars j fuel (',' :: (memberChars (m :: members) ++ '\x7d' :: rest))
      (hvalues _ (List.mem_cons_self ..)) (by omega) (endsNumeral_cons (by simp))
    have hrest := members?_chars (m :: members) fuel rest (List.cons_ne_nil m members)
      (fun i hi => hnames i (List.mem_cons_of_mem _ hi))
      (fun i hi => hvalues i (List.mem_cons_of_mem _ hi)) (by omega)
    exact members?_cons (List.cons_ne_nil m members) hvalue rfl hrest

end

end Reader

/-- The text of a value holds that value and nothing else. -/
theorem parse?_render {j : Json} (hj : Written j) : parse? j.render = some j := by
  have hskip := Reader.skipBlanks_chars j []
  have hread := Reader.value?_chars j (2 * j.chars.length + 1) [] hj (by omega)
    Reader.endsNumeral_nil
  rw [List.append_nil] at hskip hread
  simp only [parse?, render, String.toList_ofList, hskip, hread, Option.bind_some]
  rfl

namespace Library

/-- The documents that a library writes for records of whole numbers, doubles, flags and texts. -/
inductive Writes (lib : Library) : Json → Prop
  | null : Writes lib .null
  | bool (b : Bool) : Writes lib (.bool b)
  | nat {n : Nat} (h : n < 2 ^ 64) : Writes lib (.nat n)
  | double {x : Binary64} (h : x.isFinite = true) : Writes lib (.number (lib.numeral x))
  | text (s : String) : Writes lib (.text s)
  | fields {fields : List (String × Json)} (values : ∀ f ∈ fields, Writes lib f.2) :
      Writes lib (.ofFields fields)

theorem read?_write {j : Json} (h : Written j) : exact.read? (exact.write j) = some j :=
  parse?_render h

end Library

end RpcPolicy.Json
