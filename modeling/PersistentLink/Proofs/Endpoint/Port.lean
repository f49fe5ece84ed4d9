import PersistentLink.Endpoint.Parse

/-!
# Port numbers

A port is read from decimal digits, in front of which one plus sign may stand. A text that is
anything else writes no port, and so does a number that is too large.

## Main definitions

- `WritesNumber`: the number that a text writes

## Main results

- `readDecimal_eq_some_iff`: what digits are read as
- `readPort_eq_some_iff`: a text is read as a port exactly if it writes one
- `readPort_toDigits`: a port that was written is read as itself
-/

namespace PersistentLink

/-- A text writes a number: digits, of which there is at least one, after at most one plus sign. -/
def WritesNumber (text : List Char) (number : Nat) : Prop :=
  ∃ digits, (text = digits ∨ text = '+' :: digits) ∧ digits ≠ [] ∧
    (∀ c ∈ digits, c.isDigit = true) ∧ Nat.ofDigitChars 10 digits 0 = number

variable {digits text : List Char} {number : Nat} {port : UInt16} {c : Char}

theorem WritesNumber.plus_or_digit (h : WritesNumber text number) (hmem : c ∈ text) :
    c = '+' ∨ c.isDigit = true := by
  obtain ⟨digits, rfl | rfl, -, hdigits, -⟩ := h
  · exact .inr (hdigits c hmem)
  · exact (List.mem_cons.mp hmem).imp_right (hdigits c)

theorem digitValue?_eq (c : Char) :
    digitValue? c = if c.isDigit = true then some (c.toNat - '0'.toNat) else none := rfl

/-- Digits are appended to the number read so far. -/
theorem foldlM_digits (start : Nat) :
    digits.foldlM (fun number c => (digitValue? c).map (number * 10 + ·)) start = some number ↔
      (∀ c ∈ digits, c.isDigit = true) ∧ Nat.ofDigitChars 10 digits start = number := by
  induction digits generalizing start with
  | nil => simp
  | cons c rest ih =>
    rw [List.foldlM_cons, digitValue?_eq, Nat.ofDigitChars_cons, List.forall_mem_cons]
    by_cases hdigit : c.isDigit = true
    · have hrest := ih (start * 10 + (c.toNat - '0'.toNat))
      simpa [hdigit, Nat.mul_comm start 10] using hrest
    · simp [hdigit]

theorem readDecimal_eq_some_iff :
    readDecimal digits = some number ↔ digits ≠ [] ∧ (∀ c ∈ digits, c.isDigit = true) ∧
      Nat.ofDigitChars 10 digits 0 = number := by
  cases digits with
  | nil => simp [readDecimal]
  | cons c rest =>
    have hread : readDecimal (c :: rest) =
        (c :: rest).foldlM (fun number c => (digitValue? c).map (number * 10 + ·)) 0 := rfl
    rw [hread, foldlM_digits]
    simp

/-- A text without a plus sign in front. -/
def unsigned : List Char → List Char
  | '+' :: rest => rest
  | text => text

/-- A plus sign is no digit, so a text that begins with one is read without it. -/
theorem writesNumber_iff :
    WritesNumber text number ↔ readDecimal (unsigned text) = some number := by
  rw [readDecimal_eq_some_iff, unsigned.eq_def]
  constructor
  · rintro ⟨digits, rfl | rfl, hdigits⟩
    · split
      · exact absurd (hdigits.2.1 '+' List.mem_cons_self) (by decide)
      · exact hdigits
    · exact hdigits
  · intro hdigits
    split at hdigits
    · exact ⟨_, .inr rfl, hdigits⟩
    · exact ⟨_, .inl rfl, hdigits⟩

theorem readPort_eq (text : List Char) :
    readPort text = (readDecimal (unsigned text)).bind fun number =>
      if number < UInt16.size then some (UInt16.ofNat number) else none := by
  unfold readPort
  split
  · rfl
  · rename_i hplain
    rw [unsigned.eq_2 text hplain]
    rfl

/-- A text is read as a port exactly if it writes the number of one. -/
theorem readPort_eq_some_iff : readPort text = some port ↔ WritesNumber text port.toNat := by
  rw [writesNumber_iff, readPort_eq, Option.bind_eq_some_iff]
  constructor
  · rintro ⟨number, hnumber, hport⟩
    rw [Option.ite_none_right_eq_some, Option.some.injEq] at hport
    obtain ⟨hsmall, rfl⟩ := hport
    rw [hnumber, UInt16.toNat_ofNat_of_lt' hsmall]
  · intro hport
    exact ⟨port.toNat, hport, by simp [port.toNat_lt]⟩

/-- A port is written in digits, and read as itself. -/
theorem readPort_toDigits (port : UInt16) : readPort (Nat.toDigits 10 port.toNat) = some port :=
  readPort_eq_some_iff.mpr ⟨_, .inl rfl, Nat.toDigits_ne_nil,
    fun _ => Nat.isDigit_of_mem_toDigits (by decide) (by decide), Nat.ofDigitChars_ten_toDigits⟩

end PersistentLink
