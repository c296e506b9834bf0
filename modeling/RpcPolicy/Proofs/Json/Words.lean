import RpcPolicy.Json.Reader
import RpcPolicy.Json.Writer
import RpcPolicy.Proofs.Number.Decimals
/-! The numerals and strings of documents. Main statements: a numeral and a string that were written
are read back, up to what follows them. -/

namespace RpcPolicy.Json.Reader

open Decimal (isDigit_toDigits)

/-! ### Digits -/

/-- What follows does not begin with a digit. -/
def NoDigit (rest : List Char) : Prop := ∀ c cs, rest = c :: cs → c.isDigit = false

/-- What follows does not go on with a numeral. -/
def EndsNumeral (rest : List Char) : Prop :=
  ∀ c cs, rest = c :: cs → c.isDigit = false ∧ c ≠ '.' ∧ c ≠ 'e' ∧ c ≠ 'E'

variable {ds rest : List Char} {n : Nat} {c : Char}

theorem noDigit_cons (h : c.isDigit = false) : NoDigit (c :: rest) := by
  rintro _ _ ⟨⟩
  exact h

theorem EndsNumeral.noDigit (h : EndsNumeral rest) : NoDigit rest :=
  fun c cs he => (h c cs he).1

theorem takeWhile_digits (hd : ∀ c ∈ ds, c.isDigit = true) (hr : NoDigit rest) :
    (ds ++ rest).takeWhile Char.isDigit = ds := by
  rw [List.takeWhile_append_of_pos hd]
  cases rest with
  | nil => simp
  | cons c cs => simp [hr c cs rfl]

theorem dropWhile_digits (hd : ∀ c ∈ ds, c.isDigit = true) (hr : NoDigit rest) :
    (ds ++ rest).dropWhile Char.isDigit = rest := by
  rw [List.dropWhile_append_of_pos hd]
  cases rest with
  | nil => rfl
  | cons c cs => simp [hr c cs rfl]

theorem digits?_append (hne : ds ≠ []) (hd : ∀ c ∈ ds, c.isDigit = true) (hr : NoDigit rest) :
    digits? (ds ++ rest) = some (ds, rest) := by
  unfold digits?
  rw [takeWhile_digits hd hr, dropWhile_digits hd hr]
  cases ds with
  | nil => exact absurd rfl hne
  | cons d ds => rfl

/-- Only zero is written with a leading zero. -/
theorem head_toDigits (h : n ≠ 0) :
    ∃ d ds, Nat.toDigits 10 n = d :: ds ∧ d.isDigit = true ∧ d ≠ '0' := by
  induction n using Nat.strongRecOn with
  | ind n ih =>
    rw [Nat.toDigits_eq_if (by decide)]
    by_cases hn : n < 10
    · rw [if_pos hn]
      refine ⟨n.digitChar, [], rfl, by simpa [Nat.isDigit_digitChar] using hn, ?_⟩
      intro hzero
      exact h (Nat.digitChar_eq_zero.mp hzero)
    · rw [if_neg hn]
      obtain ⟨d, ds, hds, hdigit, hne⟩ := ih (n / 10) (by omega) (by omega)
      exact ⟨d, ds ++ [(n % 10).digitChar], by rw [hds]; rfl, hdigit, hne⟩

/-! ### Numerals -/

theorem whole?_toDigits (n : Nat) (hr : NoDigit rest) :
    whole? (Nat.toDigits 10 n ++ rest) = some (n, rest) := by
  by_cases h : n = 0
  · subst h
    cases rest with
    | nil => rfl
    | cons c cs =>
      have hc := hr c cs rfl
      simp [whole?, hc]
  · obtain ⟨d, ds, hds, hdigit, hne⟩ := head_toDigits h
    have htake := takeWhile_digits (isDigit_toDigits n) hr
    have hdrop := dropWhile_digits (isDigit_toDigits n) hr
    rw [hds] at htake hdrop ⊢
    have hwhole : whole? (d :: ds ++ rest) =
        some (Nat.ofDigitChars 10 ((d :: ds ++ rest).takeWhile Char.isDigit) 0,
          (d :: ds ++ rest).dropWhile Char.isDigit) := by
      simp only [List.cons_append]
      unfold whole?
      split
      · simp_all
      · simp_all
      · simp_all
    rw [hwhole, htake, hdrop, ← hds, Nat.ofDigitChars_ten_toDigits]

/-- The part of a numeral after its point. -/
def fractionChars (fraction : List Char) : List Char :=
  if fraction.isEmpty then [] else '.' :: fraction

/-- The power of ten of a numeral. -/
def exponentChars (plus : Bool) : Option Int → List Char
  | none => []
  | some e =>
    'e' :: (if e < 0 then ['-'] else if plus then ['+'] else []) ++ Nat.toDigits 10 e.natAbs

theorem fraction?_append (hd : ∀ c ∈ ds, c.isDigit = true) (hr : NoDigit rest)
    (hp : ∀ c cs, rest = c :: cs → c ≠ '.') :
    fraction? (fractionChars ds ++ rest) = some (ds, rest) := by
  cases ds with
  | nil =>
    cases rest with
    | nil => rfl
    | cons c cs =>
      have hc := hp c cs rfl
      simp [fractionChars, fraction?, hc]
  | cons d ds =>
    simp only [fractionChars, List.isEmpty_cons, Bool.false_eq_true, if_false, List.cons_append,
      fraction?]
    exact digits?_append (List.cons_ne_nil d ds) hd hr

theorem exponent?_append (e : Option Int) (hr : EndsNumeral rest) :
    exponent? (exponentChars true e ++ rest) = some (e, rest) := by
  cases e with
  | none =>
    cases rest with
    | nil => rfl
    | cons c cs =>
      obtain ⟨-, -, he, hE⟩ := hr c cs rfl
      simp [exponentChars, exponent?, he, hE]
  | some e =>
    have hdigits := digits?_append Nat.toDigits_ne_nil (isDigit_toDigits e.natAbs) hr.noDigit
    simp only [exponentChars]
    generalize hn : e.natAbs = n at hdigits ⊢
    by_cases h : e < 0
    · have hneg : -(n : Int) = e := by omega
      simp [exponent?, h, hdigits, Nat.ofDigitChars_ten_toDigits, hneg]
    · have hpos : (n : Int) = e := by omega
      simp [exponent?, h, hdigits, Nat.ofDigitChars_ten_toDigits, hpos]

theorem chars_eq (plus : Bool) (n : Numeral) :
    n.chars plus = (if n.negative then ['-'] else []) ++
      (Nat.toDigits 10 n.whole ++ (fractionChars n.fraction ++ exponentChars plus n.exponent)) := by
  obtain ⟨negative, whole, fraction, exponent⟩ := n
  cases exponent <;> simp [Numeral.chars, fractionChars, exponentChars]

theorem noDigit_exponentChars (e : Option Int) (hr : EndsNumeral rest) :
    NoDigit (exponentChars true e ++ rest) ∧
      ∀ c cs, exponentChars true e ++ rest = c :: cs → c ≠ '.' := by
  cases e with
  | none => exact ⟨hr.noDigit, fun c cs h => (hr c cs h).2.1⟩
  | some e =>
    refine ⟨noDigit_cons (by decide), ?_⟩
    rintro c cs h rfl
    cases h

theorem unsigned?_append {n : Numeral} (negative : Bool) (hd : n.Digital) (hr : EndsNumeral rest) :
    unsigned? negative (Nat.toDigits 10 n.whole ++
      (fractionChars n.fraction ++ (exponentChars true n.exponent ++ rest))) =
        some ({ n with negative }, rest) := by
  obtain ⟨hnodigit, hnopoint⟩ := noDigit_exponentChars n.exponent hr
  have hfraction := fraction?_append hd hnodigit hnopoint
  have hwhole : NoDigit (fractionChars n.fraction ++ (exponentChars true n.exponent ++ rest)) := by
    cases hf : n.fraction with
    | nil => exact hnodigit
    | cons d ds => exact noDigit_cons (by decide)
  simp only [unsigned?, whole?_toDigits n.whole hwhole, Option.bind_some, hfraction,
    exponent?_append n.exponent hr, Option.map_some]

/-- A numeral that begins with a digit has no sign. -/
theorem numeral?_toDigits (n : Nat) (cs : List Char) :
    numeral? (Nat.toDigits 10 n ++ cs) = unsigned? false (Nat.toDigits 10 n ++ cs) := by
  obtain ⟨d, ds, hds⟩ := List.exists_cons_of_ne_nil (Nat.toDigits_ne_nil (n := n) (b := 10))
  have hdigit := isDigit_toDigits n d (by rw [hds]; exact List.mem_cons_self ..)
  have hne : d ≠ '-' := by
    rintro rfl
    cases hdigit
  rw [hds]
  simp [numeral?, hne]

/-- A numeral that was written is read back. -/
theorem numeral?_chars {n : Numeral} (hd : n.Digital) (hr : EndsNumeral rest) :
    numeral? (n.chars true ++ rest) = some (n, rest) := by
  have hunsigned := fun negative => unsigned?_append negative hd hr
  rw [chars_eq]
  cases hn : n.negative with
  | true =>
    simp only [if_true, List.append_assoc, List.cons_append, List.nil_append, numeral?]
    rw [hunsigned true, ← hn]
  | false =>
    simp only [Bool.false_eq_true, if_false, List.append_assoc, List.nil_append]
    rw [numeral?_toDigits, hunsigned false, ← hn]

/-! ### Strings -/

theorem hexDigit?_hexChar : ∀ n, n < 16 → hexDigit? (hexChar n) = some n := by decide

/-- How a character stands in a string: by a short escape, by its number, or as itself. -/
theorem escapedChar_cases (c : Char) :
    (∃ e, escapedChar c = ['\\', e] ∧ e ≠ 'u' ∧ escaped? e = some c) ∨
      (escapedChar c = ['\\', 'u', '0', '0', hexChar (c.toNat / 16), hexChar (c.toNat % 16)] ∧
        c.toNat < 32) ∨
      (escapedChar c = [c] ∧ c ≠ '"' ∧ c ≠ '\\' ∧ ¬ c.toNat < 32) := by
  by_cases h : c ∈ ['"', '\\', '\x08', '\x0c', '\n', '\r', '\t']
  · simp only [List.mem_cons, List.not_mem_nil, or_false] at h
    refine Or.inl ?_
    rcases h with rfl | rfl | rfl | rfl | rfl | rfl | rfl <;>
      exact ⟨_, rfl, by decide, by decide⟩
  · simp only [List.mem_cons, List.not_mem_nil, or_false, not_or] at h
    by_cases hn : c.toNat < 32
    · exact Or.inr (Or.inl ⟨by simp [escapedChar, h, hn], hn⟩)
    · exact Or.inr (Or.inr ⟨by simp [escapedChar, h, hn], h.1, h.2.1, hn⟩)

theorem hexUnit?_hexChar {n : Nat} (h : n < 32) :
    hexUnit? '0' '0' (hexChar (n / 16)) (hexChar (n % 16)) = some n := by
  have hzero : hexDigit? '0' = some 0 := by decide
  have hhigh := hexDigit?_hexChar (n / 16) (by omega)
  have hlow := hexDigit?_hexChar (n % 16) (by omega)
  simp only [hexUnit?, hzero, hhigh, hlow, Option.bind_some, Option.map_some, Option.some.injEq]
  omega

theorem units?_escapedChar (c : Char) (rest : List Char) :
    units? (escapedChar c ++ rest) =
      (units? rest).map fun (us, rest) => (c.toNat :: us, rest) := by
  rcases escapedChar_cases c with ⟨e, hc, hu, he⟩ | ⟨hc, hn⟩ | ⟨hc, hquote, hslash, hn⟩
  · rw [hc]
    simp only [List.cons_append, List.nil_append]
    rw [units?, he, Option.bind_some]
    rintro a b c d cs rfl
    exact absurd rfl hu
  · rw [hc]
    simp only [List.cons_append, List.nil_append, units?, hexUnit?_hexChar hn, Option.bind_some]
  · rw [hc]
    simp [units?, hn, hslash]

theorem units?_quoted (cs rest : List Char) :
    units? (cs.flatMap escapedChar ++ '"' :: rest) = some (cs.map Char.toNat, rest) := by
  induction cs with
  | nil => simp [units?]
  | cons c cs ih =>
    rw [List.flatMap_cons, List.append_assoc, units?_escapedChar, ih]
    rfl

/-- Whole characters hold no halves of pairs. -/
theorem joinPairs?_toNat (cs : List Char) : joinPairs? (cs.map Char.toNat) = some cs := by
  induction cs with
  | nil => rfl
  | cons c cs ih =>
    have hvalid : c.toNat < 0xd800 ∨ 0xdfff < c.toNat ∧ c.toNat < 0x110000 := c.valid
    have hhigh : isHigh c.toNat = false := by
      simp only [isHigh, Bool.and_eq_false_iff, decide_eq_false_iff_not]
      omega
    have hlow : isLow c.toNat = false := by
      simp only [isLow, Bool.and_eq_false_iff, decide_eq_false_iff_not]
      omega
    have hjoin : joinPairs? (c.toNat :: cs.map Char.toNat) =
        (joinPairs? (cs.map Char.toNat)).map (Char.ofNat c.toNat :: ·) := by
      rw [joinPairs?.eq_def]
      simp [hhigh, hlow]
    rw [List.map_cons, hjoin, ih, Option.map_some, Char.ofNat_toNat]

/-- A string that was written is read back. -/
theorem string?_chars (s : String) (rest : List Char) :
    string? (s.toList.flatMap escapedChar ++ '"' :: rest) = some (some s, rest) := by
  simp [string?, units?_quoted, joinPairs?_toNat]

end RpcPolicy.Json.Reader
