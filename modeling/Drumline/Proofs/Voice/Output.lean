import Drumline.Proofs.Token.Grammar
import Drumline.Proofs.Voice.Reading
import Drumline.Proofs.Voice.Tie

/-! The texts of converted voices.  A voice is written in pieces of a regular expression
(`convert_mem_output`), in the characters of `alphabet`, and it is empty exactly if all its tokens
set the octave (`convert_eq_nil_iff`). -/

namespace Drumline

open RegularExpression Token.Pattern

namespace Token

/-- The token sets the octave. -/
def isOctave : Token → Bool
  | octaveSet _ | octaveUp | octaveDown => true
  | _ => false

end Token

namespace Voice

/-- The pieces that a converted voice is made of. -/
def pieces : List (RegularExpression Char) :=
  [char 'l' * numeral * dot, char 'n' * numeral, char 'n' * (char '-' * numeral), char 'r',
    char '&', char 'v' * numeral, char 't' * numeral, numeral * dot, char '.']

def output : RegularExpression Char := star pieces.sum

/-- The characters of the pieces. -/
def alphabet : List Char := "0123456789".toList ++ "&-.lnrtv".toList

end Voice

section Words

variable {word : List Char}

theorem mem_sum {ps : List (RegularExpression Char)} :
    word ∈ ps.sum.matches' ↔ ∃ p ∈ ps, word ∈ p.matches' := by
  induction ps with
  | nil => simp
  | cons p ps ih =>
    rw [List.sum_cons, Token.mem_add, ih]
    simp

theorem IsWord.mem_pieces (h : IsWord word) : word ∈ Voice.pieces.sum.matches' := by
  rw [mem_sum]
  cases h with
  | command h =>
    cases h with
    | lengthMacro h dotted =>
      refine ⟨char 'l' * numeral * dot, by simp [Voice.pieces], ?_⟩
      exact Token.mem_mul_dot.mpr ⟨_, dotted, Token.mem_char_mul_numeral.mpr ⟨_, h, rfl⟩, rfl⟩
    | volume h =>
      exact ⟨char 'v' * numeral, by simp [Voice.pieces], Token.mem_char_mul_numeral.mpr ⟨_, h, rfl⟩⟩
    | tempo h =>
      exact ⟨char 't' * numeral, by simp [Voice.pieces], Token.mem_char_mul_numeral.mpr ⟨_, h, rfl⟩⟩
  | number h =>
    cases h with
    | digits h dotted =>
      refine ⟨numeral * dot, by simp [Voice.pieces], ?_⟩
      exact Token.mem_mul_dot.mpr ⟨_, dotted, Token.mem_numeral.mpr h, rfl⟩
    | dot => exact ⟨char '.', by simp [Voice.pieces], rfl⟩
  | tie => exact ⟨char '&', by simp [Voice.pieces], rfl⟩
  | rest => exact ⟨char 'r', by simp [Voice.pieces], rfl⟩
  | note h =>
    rcases h with h | ⟨digits, h, rfl⟩
    · exact ⟨char 'n' * numeral, by simp [Voice.pieces], Token.mem_char_mul_numeral.mpr ⟨_, h, rfl⟩⟩
    · refine ⟨char 'n' * (char '-' * numeral), by simp [Voice.pieces], ?_⟩
      exact Token.mem_mul.mpr
        ⟨['n'], _, rfl, Token.mem_char_mul_numeral.mpr ⟨digits, h, rfl⟩, rfl⟩

theorem IsWord.mem_alphabet (h : IsWord word) : ∀ c ∈ word, c ∈ Voice.alphabet := by
  have hDigits : ∀ {digits : List Char}, Numeral.isNumeral digits = true →
      ∀ c ∈ digits, c ∈ Voice.alphabet := by
    intro digits h c hc
    exact List.mem_append_left _ (Token.isDigit_iff.mp ((Numeral.isNumeral_iff.mp h).2 c hc))
  have hDotted : ∀ {digits : List Char}, Numeral.isNumeral digits = true → ∀ dotted,
      ∀ c ∈ digits ++ Token.dotText dotted, c ∈ Voice.alphabet := by
    intro digits h dotted
    refine List.forall_mem_append.mpr ⟨hDigits h, ?_⟩
    cases dotted with
    | false => exact nofun
    | true => exact List.forall_mem_singleton.mpr (by decide)
  cases h with
  | command h =>
    cases h with
    | lengthMacro h dotted => exact List.forall_mem_cons.mpr ⟨by decide, hDotted h dotted⟩
    | volume h | tempo h => exact List.forall_mem_cons.mpr ⟨by decide, hDigits h⟩
  | number h =>
    cases h with
    | digits h dotted => exact hDotted h dotted
    | dot => exact List.forall_mem_singleton.mpr (by decide)
  | tie | rest => exact List.forall_mem_singleton.mpr (by decide)
  | note h =>
    refine List.forall_mem_cons.mpr ⟨by decide, ?_⟩
    rcases h with h | ⟨digits, h, rfl⟩
    · exact hDigits h
    · exact List.forall_mem_cons.mpr ⟨by decide, hDigits h⟩

end Words

namespace Voice

variable {voice : List Char} {c : Char}

theorem mem_alphabet_of_mem_convert (h : c ∈ convert voice) : c ∈ alphabet := by
  rw [convert_eq] at h
  obtain ⟨word, hWord, hc⟩ := List.mem_flatten.mp h
  exact (isWord_of_mem_words (mem_of_mem_dropRepeats hWord)).mem_alphabet c hc

/-- A converted voice is made of pieces. -/
theorem convert_mem_output (voice : List Char) : convert voice ∈ output.matches' := by
  rw [output, matches'_star, Language.mem_kstar]
  exact ⟨_, convert_eq voice, fun word hWord =>
    (isWord_of_mem_words (mem_of_mem_dropRepeats hWord)).mem_pieces⟩

theorem fragments_eq_nil_iff (voice : List Char) :
    fragments voice = [] ↔ ∀ x ∈ Lexeme.tokenize voice, x.token.isOctave = true := by
  rw [← List.length_eq_zero_iff, length_fragments, List.length_eq_zero_iff, List.filter_eq_nil_iff]
  refine forall₂_congr fun x hx => ?_
  have hStray := Lexeme.Written.ne_stray (Lexeme.written_of_mem_tokenize hx)
  cases hToken : x.token <;> simp_all [Lexeme.emits, Token.isOctave]

theorem words_eq_nil_iff (voice : List Char) : words voice = [] ↔ fragments voice = [] := by
  constructor
  · intro h
    cases hFragments : fragments voice with
    | nil => rfl
    | cons f fs =>
      rw [words, hFragments, List.map_cons, List.flatMap_cons, List.append_eq_nil_iff] at h
      have hWords := h.1
      cases hSounded : f.sounded <;> simp [hSounded, Fragment.words] at hWords
  · intro h
    rw [words, h]
    rfl

/-- A converted voice is empty exactly if all its tokens set the octave. -/
theorem convert_eq_nil_iff (voice : List Char) :
    convert voice = [] ↔ ∀ x ∈ Lexeme.tokenize voice, x.token.isOctave = true := by
  rw [← fragments_eq_nil_iff, ← words_eq_nil_iff, convert_eq]
  constructor
  · intro h
    cases hWords : words voice with
    | nil => rfl
    | cons word rest =>
      -- nothing is repeated by the first word
      have hKept : ∀ length, Length.parseMacro? word = some length → none ≠ some length := nofun
      rw [hWords, dropRepeats_cons_kept hKept, List.flatten_cons, List.append_eq_nil_iff] at h
      have hWord : IsWord word := isWord_of_mem_words (hWords ▸ List.mem_cons_self)
      exact absurd h.1 hWord.ne_nil
  · intro h
    rw [h]
    rfl

/-- No token of a converted voice sets the octave. -/
theorem isOctave_eq_false_of_mem_tokenize {x : Lexeme}
    (h : x ∈ Lexeme.tokenize (convert voice)) : x.token.isOctave = false := by
  have hChars : ∀ c ∈ x.raw, c ∈ alphabet := fun c hc =>
    mem_alphabet_of_mem_convert (Lexeme.mem_of_mem_scanFrom (List.mem_of_mem_filter h) hc)
  have hWritten := Lexeme.written_of_mem_tokenize h
  generalize x.raw = raw at hChars hWritten
  generalize x.token = token at hWritten
  cases hWritten with
  | octaveSet | octaveUp | octaveDown => exact absurd (hChars _ List.mem_cons_self) (by decide)
  | _ => rfl

end Voice

end Drumline
