import Drumline.Proofs.Kit.Sounding
import Drumline.Proofs.Token.Grammar

/-! Digits that are read in words.  `Numeral.Clamps` says that a reading gives the value of the
digits up to a limit and the limit beyond it, and what follows from that: it keeps the order of the
values, passes over leading zeros, and tells values below the limit apart from all others.  The main
statement is `readings_clamp`, that words, short words and octaves are read so, and that the kit
finds a number that is read exactly if it lists its value. -/

namespace Drumline

namespace Numeral

def IsDigits (text : List Char) : Prop := ∀ c ∈ text, c.isDigit = true

/-- The reading gives the value of the digits, or the limit where the value is larger. -/
structure Clamps (limit : Nat) (read : List Char → Int) : Prop where
  eq_min : ∀ digits, IsDigits digits → read digits = (min (value digits) limit : Nat)
  mono : ∀ a b, IsDigits a → IsDigits b → value a ≤ value b → read a ≤ read b
  zeros : ∀ n digits, IsDigits digits → read (List.replicate n '0' ++ digits) = read digits
  eq_iff : ∀ a b, IsDigits a → IsDigits b →
    (read a = read b ↔ value a = value b ∨ limit ≤ value a ∧ limit ≤ value b)

theorem value_zeros_append (n : Nat) (digits : List Char) :
    value (List.replicate n '0' ++ digits) = value digits := by
  induction n with
  | zero => rfl
  | succ n ih =>
    rw [List.replicate_succ, List.cons_append, ← ih, value, value]
    simp [Nat.ofDigitChars_eq_foldl]

theorem IsDigits.zeros_append {digits : List Char} (h : IsDigits digits) (n : Nat) :
    IsDigits (List.replicate n '0' ++ digits) := by
  intro c hc
  rcases List.mem_append.mp hc with hc | hc
  · rw [List.eq_of_mem_replicate hc]
    decide
  · exact h c hc

/-- All that a reading with a limit keeps to follows from the value that it gives. -/
theorem Clamps.of_eq_min {limit : Nat} {read : List Char → Int}
    (h : ∀ digits, IsDigits digits → read digits = (min (value digits) limit : Nat)) :
    Clamps limit read where
  eq_min := h
  mono a b ha hb hLe := by
    rw [h a ha, h b hb]
    omega
  zeros n digits hDigits := by
    rw [h _ (hDigits.zeros_append n), h digits hDigits, value_zeros_append]
  eq_iff a b ha hb := by
    rw [h a ha, h b hb]
    omega

theorem readWord_eq (digits : List Char) : readWord digits = min (value digits) (2 ^ 64 - 1) :=
  readUpTo_eq_min greatestWord digits

theorem toNat_readShortWord (digits : List Char) :
    (readShortWord digits).toNat = min (value digits) (2 ^ 32 - 1) := by
  rw [Token.readShortWord_eq, UInt32.toNat_ofNat_of_lt']
  unfold UInt32.size
  omega

end Numeral

/-- A text that sets an octave is the letter with the digits that are read. -/
theorem Token.Written.exists_digits {text : List Char} {octave : Int}
    (h : Written text (.octaveSet octave)) :
    ∃ digits, Numeral.isNumeral digits = true ∧ text = 'o' :: digits ∧
      octave = readOctave digits := by
  cases h with
  | octaveSet h => exact ⟨_, h, rfl, rfl⟩

/-- Digits are read in words, short words and octaves as their value, or as the greatest one that
there is where the value is larger.  An octave token is read from all its digits, and the kit has a
sound for the number that is read exactly if it lists the value. -/
theorem Numeral.readings_clamp :
    Clamps (2 ^ 64 - 1) (fun digits => readWord digits) ∧
    Clamps (2 ^ 32 - 1) (fun digits => (readShortWord digits).toNat) ∧
    Clamps (2 ^ 63 - 1) Token.readOctave ∧
    (∀ digits, isNumeral digits = true → Lexeme.contents ('o' :: digits) =
      [(.octaveSet (min (value digits) (2 ^ 63 - 1) : Nat), 'o' :: digits)]) ∧
    (∀ voice, ∀ x ∈ Lexeme.tokenize voice, ∀ octave, x.token = .octaveSet octave →
      ∃ digits, isNumeral digits = true ∧ x.raw = 'o' :: digits ∧
        octave = (min (value digits) (2 ^ 63 - 1) : Nat)) ∧
    (∀ digits, IsDigits digits → ∀ number ∈ [readWord digits, (readShortWord digits).toNat,
        (Token.readOctave digits).toNat], ∀ sound,
      Kit.sound? number = some sound ↔ (value digits, sound) ∈ Kit.entries) := by
  refine ⟨.of_eq_min fun digits _ => ?_, .of_eq_min fun digits _ => ?_,
    .of_eq_min fun digits _ => Token.readOctave_eq digits, ?_, ?_, ?_⟩
  · rw [readWord_eq]
  · rw [toNat_readShortWord]
  · intro digits hDigits
    rw [← Token.readOctave_eq]
    exact Lexeme.contents_written (.octaveSet hDigits)
  · intro voice x hx octave hToken
    have hWritten := Lexeme.written_of_mem_tokenize hx
    rw [hToken] at hWritten
    obtain ⟨digits, hDigits, hRaw, rfl⟩ := hWritten.exists_digits
    exact ⟨digits, hDigits, hRaw, Token.readOctave_eq digits⟩
  · intro digits _ number hNumber sound
    rw [readWord_eq, toNat_readShortWord, Token.readOctave_eq, Int.toNat_natCast] at hNumber
    have hSound : Kit.sound? number = Kit.sound? (value digits) := by
      simp only [List.mem_cons, List.not_mem_nil, or_false] at hNumber
      rcases hNumber with rfl | rfl | rfl <;> exact Kit.sound?_min (by decide) _
    rw [hSound, Kit.mem_entries_iff]

-- the last digit reaches the limit in the sum, one more does in the product
example : Numeral.readWord "18446744073709551616".toList = 2 ^ 64 - 1 ∧
    Numeral.readWord "184467440737095516150".toList = 2 ^ 64 - 1 := by decide +kernel

end Drumline
