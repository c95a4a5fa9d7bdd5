import Drumline.Voice
import Drumline.Proofs.Lexeme.Seam

/-! The words of a converted voice.  A fragment is written as one or two words with a space between
them; `IsWord` lists the texts that can occur.  The main statements are `join_eq_intercalate`, that
fragments are joined as their words are, and `plain_of_mem_fragments`, which says what the fragments
of a voice look like. -/

namespace Drumline

open Token (Written dotText isNoteLetter isNoteLetter_iff)

/-- Digits, or digits after a minus sign. -/
def Numeral.IsInteger (text : List Char) : Prop :=
  isNumeral text = true ∨ ∃ digits, isNumeral digits = true ∧ text = '-' :: digits

theorem Numeral.isNumeral_negative (digits : List Char) : isNumeral ('-' :: digits) = false := by
  simp [isNumeral, show Char.isDigit '-' = false from rfl]

theorem Numeral.readShortWord_ofNat (value : UInt32) :
    readShortWord (ofNat value.toNat) = value := by
  have hValue := value.toNat_lt
  have hMin : min (min value.toNat greatestWord) 0xFFFFFFFF = value.toNat := by
    unfold greatestWord
    omega
  rw [readShortWord, readWord, readUpTo_eq_min, value_ofNat, hMin, UInt32.ofNat_toNat]

theorem Numeral.isInteger_ofInt (i : Int) : IsInteger (ofInt i) := by
  unfold ofInt
  split
  · exact .inr ⟨_, isNumeral_ofNat _, rfl⟩
  · exact .inl (isNumeral_ofNat _)

/-- The texts that are copied from a voice and start a word anew. -/
inductive IsCommandWord : List Char → Prop
  | lengthMacro {digits : List Char} (h : Numeral.isNumeral digits = true) (dotted : Bool) :
      IsCommandWord ('l' :: (digits ++ dotText dotted))
  | volume {digits : List Char} (h : Numeral.isNumeral digits = true) :
      IsCommandWord ('v' :: digits)
  | tempo {digits : List Char} (h : Numeral.isNumeral digits = true) :
      IsCommandWord ('t' :: digits)

/-- A number of a voice: digits with or without a dot, or a dot alone. -/
inductive IsNumberWord : List Char → Prop
  | digits {digits : List Char} (h : Numeral.isNumeral digits = true) (dotted : Bool) :
      IsNumberWord (digits ++ dotText dotted)
  | dot : IsNumberWord ['.']

/-- The words of a converted voice. -/
inductive IsWord : List Char → Prop
  | command {text : List Char} (h : IsCommandWord text) : IsWord text
  | number {text : List Char} (h : IsNumberWord text) : IsWord text
  | tie : IsWord ['&']
  | rest : IsWord ['r']
  | note {number : List Char} (h : Numeral.IsInteger number) : IsWord ('n' :: number)

theorem isInner_of_isDigit {c : Char} (h : c.isDigit = true) : Token.isInner c = true := by
  simp [Token.isInner, h]

theorem isInner_of_mem_append {digits : List Char} (h : ∀ c ∈ digits, c.isDigit = true)
    (dotted : Bool) : ∀ c ∈ digits ++ dotText dotted, Token.isInner c = true := by
  intro c hc
  rcases List.mem_append.mp hc with hc | hc
  · exact isInner_of_isDigit (h c hc)
  · cases dotted with
    | false => cases hc
    | true =>
      obtain rfl := List.mem_singleton.mp hc
      decide

theorem Numeral.IsInteger.isInner {text : List Char} (h : IsInteger text) :
    ∀ c ∈ text, Token.isInner c = true := by
  have hDigits : ∀ {digits : List Char}, isNumeral digits = true →
      ∀ c ∈ digits, Token.isInner c = true :=
    fun h c hc => isInner_of_isDigit ((isNumeral_iff.mp h).2 c hc)
  rcases h with h | ⟨digits, h, rfl⟩
  · exact hDigits h
  · simpa [show Token.isInner '-' = true from rfl] using hDigits h

/-- A word is a length macro, or it starts with another character and goes on with inner ones. -/
theorem IsWord.macro_or_inner {word : List Char} (h : IsWord word) :
    (∃ digits dotted, Numeral.isNumeral digits = true ∧ word = 'l' :: (digits ++ dotText dotted)) ∨
    ∃ c tail, word = c :: tail ∧ c ≠ 'l' ∧ (c.isDigit = true ∨ c ∈ ['&', 'r', 'n', 'v', 't', '.']) ∧
      ∀ d ∈ tail, Token.isInner d = true := by
  have hDigits : ∀ {digits : List Char}, Numeral.isNumeral digits = true →
      ∀ d ∈ digits, Token.isInner d = true :=
    fun h => Numeral.IsInteger.isInner (.inl h)
  cases h with
  | command h =>
    cases h with
    | lengthMacro h dotted => exact .inl ⟨_, dotted, h, rfl⟩
    | volume h | tempo h => exact .inr ⟨_, _, rfl, by decide, .inr (by decide), hDigits h⟩
  | number h =>
    cases h with
    | @digits digits h dotted =>
      obtain ⟨c, tail, rfl, hHead, hTail⟩ := Numeral.exists_cons h
      exact .inr ⟨c, _, rfl, ne_of_isDigit hHead (by decide), .inl hHead,
        isInner_of_mem_append hTail dotted⟩
    | dot => exact .inr ⟨_, _, rfl, by decide, .inr (by decide), by simp⟩
  | tie | rest => exact .inr ⟨_, _, rfl, by decide, .inr (by decide), by simp⟩
  | note h => exact .inr ⟨_, _, rfl, by decide, .inr (by decide), h.isInner⟩

def isNoteWord : List Char → Bool
  | 'n' :: number => Numeral.isNumeral number
  | _ => false

theorem isNoteWord_cons {c : Char} (h : c ≠ 'n') (text : List Char) :
    isNoteWord (c :: text) = false := by
  simp [isNoteWord, h]

theorem not_mem_of_copied {text : List Char} (h : IsCommandWord text ∨ IsNumberWord text) {c : Char}
    (hDigit : c.isDigit = false) (hc : c ∉ ['l', 'v', 't', '.']) : c ∉ text := by
  simp only [List.mem_cons, List.not_mem_nil, or_false, not_or] at hc
  have hDigits : ∀ {digits : List Char}, Numeral.isNumeral digits = true → c ∉ digits :=
    fun h => Numeral.not_mem h hDigit
  rcases h with h | h
  · cases h with
    | lengthMacro h dotted => cases dotted <;> simp [hDigits h, hc]
    | volume h | tempo h => simp [hDigits h, hc]
  · cases h with
    | digits h dotted => cases dotted <;> simp [hDigits h, hc]
    | dot => simp [hc]

theorem IsWord.eq_tie_or_not_mem {word : List Char} (h : IsWord word) :
    word = ['&'] ∨ '&' ∉ word := by
  cases h with
  | command h => exact .inr (not_mem_of_copied (.inl h) (by decide) (by decide))
  | number h => exact .inr (not_mem_of_copied (.inr h) (by decide) (by decide))
  | tie => exact .inl rfl
  | rest => exact .inr (by decide)
  | note h =>
    have hDigits : ∀ {digits : List Char}, Numeral.isNumeral digits = true → '&' ∉ digits :=
      fun h => Numeral.not_mem h (by decide)
    rcases h with h | ⟨digits, h, rfl⟩ <;> simp [hDigits h]

theorem IsWord.ne_nil {word : List Char} (h : IsWord word) : word ≠ [] := by
  rcases h.macro_or_inner with ⟨digits, dotted, -, rfl⟩ | ⟨c, tail, rfl, -⟩ <;> simp

theorem Length.render_eq (length : Length) : length.render =
    'l' :: (Numeral.ofNat length.value.toNat ++ dotText length.dotted) := rfl

theorem Length.isCommandWord_render (length : Length) : IsCommandWord length.render :=
  .lengthMacro (Numeral.isNumeral_ofNat _) _

/-- A length that is written out reads back. -/
theorem Length.written_render (length : Length) : Written length.render (.lengthMacro length) := by
  have hWritten := Written.lengthMacro (Numeral.isNumeral_ofNat length.value.toNat) length.dotted
  rwa [Numeral.readShortWord_ofNat] at hWritten

theorem Pitch.exists_absolute {letter : Char} (h : isNoteLetter letter = true) (octave : Int)
    (accidental : Accidental) : ∃ number, absolute octave letter accidental = .ok number := by
  rcases isNoteLetter_iff.mp h with rfl | rfl | rfl | rfl | rfl | rfl | rfl <;> exact ⟨_, rfl⟩

/-- A note that is read has a pitch in every octave. -/
theorem Token.Written.exists_absolute {text : List Char} {letter : Char} {accidental : Accidental}
    {duration : Duration} (h : Written text (.note letter accidental duration)) (octave : Int) :
    ∃ number, Pitch.absolute octave letter accidental = .ok number :=
  Pitch.exists_absolute h.isNoteLetter octave accidental

namespace Fragment

/-- The words of a fragment. -/
def words : Fragment → List (List Char)
  | verbatim text => [text]
  | tie => [['&']]
  | rest length => [length.render, ['r']]
  | note length number => [length.render, 'n' :: number]

/-- What a fragment of a voice looks like. -/
def Plain : Fragment → Prop
  | verbatim text => IsCommandWord text ∨ IsNumberWord text
  | tie | rest _ => True
  | note _ number => Numeral.IsInteger number

theorem render_eq_intercalate (f : Fragment) : f.render = List.intercalate [' '] f.words := by
  cases f <;> simp [render, words]

theorem join_eq_intercalate (fs : List Fragment) :
    join fs = List.intercalate [' '] (fs.flatMap words) := by
  induction fs with
  | nil => rfl
  | cons f fs ih =>
    cases fs with
    | nil => simp [join, render_eq_intercalate]
    | cons g fs =>
      have hJoin : join (f :: g :: fs) = f.render ++ ' ' :: join (g :: fs) := by
        simp [join, List.intercalate_cons_cons]
      obtain ⟨word, rest, hWords⟩ : ∃ word rest, (g :: fs).flatMap words = word :: rest := by
        cases g <;> simp [words]
      rw [hJoin, ih, render_eq_intercalate, List.flatMap_cons (x := f), hWords]
      cases f <;> simp [words, List.intercalate_cons_cons]

theorem Plain.isWord {f : Fragment} (h : f.Plain) : ∀ word ∈ f.words, IsWord word := by
  cases f with
  | verbatim text =>
    intro word hWord
    obtain rfl := List.mem_singleton.mp hWord
    exact h.elim .command .number
  | tie => simpa [words] using IsWord.tie
  | rest length => simpa [words] using ⟨.command length.isCommandWord_render, IsWord.rest⟩
  | note length number =>
    simpa [words] using ⟨.command length.isCommandWord_render, IsWord.note h⟩

theorem Plain.silence {f : Fragment} (h : f.Plain) : f.silence.Plain := by
  cases f with
  | note length number =>
    by_cases hNumeral : Numeral.isNumeral number
    · simp [Fragment.silence, hNumeral, Plain]
    · simpa [Fragment.silence, hNumeral] using h
  | _ => exact h

theorem eq_verbatim_of_silence {f : Fragment} {text : List Char} (h : f.silence = verbatim text) :
    f = verbatim text := by
  cases f with
  | note length number =>
    simp only [silence] at h
    split at h <;> cases h
  | _ => exact h

theorem mem_resolveAfter {afterTie : Bool} {fs : List Fragment} {f : Fragment}
    (h : f ∈ resolveAfter afterTie fs) : ∃ g ∈ fs, f = g ∨ f = g.silence := by
  induction fs generalizing afterTie with
  | nil => cases h
  | cons g fs ih =>
    rw [resolveAfter, List.mem_cons] at h
    rcases h with rfl | h
    · refine ⟨g, by simp, ?_⟩
      cases afterTie <;> simp
    · obtain ⟨g', hMem, hEq⟩ := ih h
      exact ⟨g', by simp [hMem], hEq⟩

end Fragment

namespace State

variable {s : State} {x : Lexeme} {f : Fragment}

/-- What a lexeme copies is a number only if the lexeme is one. -/
theorem emit?_verbatim (hx : Written x.raw x.token) {text : List Char}
    (h : s.emit? x = some (.verbatim text)) :
    IsCommandWord text ∨ IsNumberWord text ∧ x.token = .number := by
  obtain ⟨token, raw, span⟩ := x
  cases hx with
  | lengthMacro hDigits dotted =>
    cases h
    exact .inl (.lengthMacro hDigits dotted)
  | volume hDigits =>
    cases h
    exact .inl (.volume hDigits)
  | tempo hDigits =>
    cases h
    exact .inl (.tempo hDigits)
  | number hDigits dotted =>
    cases h
    exact .inr ⟨.digits hDigits dotted, rfl⟩
  | dot =>
    cases h
    exact .inr ⟨.dot, rfl⟩
  | @note letter sign digits hLetter hSign hDigits dotted =>
    obtain ⟨number, hNumber⟩ := Pitch.exists_absolute hLetter s.octave (.ofSign sign)
    simp [emit?, hNumber] at h
  | _ => cases h

theorem emit?_note (hx : Written x.raw x.token) {length : Length} {number : List Char}
    (h : s.emit? x = some (.note length number)) : Numeral.IsInteger number := by
  obtain ⟨token, raw, span⟩ := x
  cases hx with
  | absolute hDigits =>
    cases h
    exact .inl hDigits
  | @note letter sign digits hLetter hSign hDigits dotted =>
    obtain ⟨pitch, hPitch⟩ := Pitch.exists_absolute hLetter s.octave (.ofSign sign)
    simp only [emit?, hPitch, Option.some.injEq, Fragment.note.injEq] at h
    rw [← h.2]
    exact Numeral.isInteger_ofInt pitch
  | _ => cases h

theorem emit?_plain (hx : Written x.raw x.token) (h : s.emit? x = some f) : f.Plain := by
  cases f with
  | verbatim text => exact (emit?_verbatim hx h).imp_right And.left
  | tie | rest => trivial
  | note length number => exact emit?_note hx h

theorem exists_emit?_of_mem_emitAll {xs : List Lexeme} (h : f ∈ s.emitAll xs) :
    ∃ x ∈ xs, ∃ s' : State, s'.emit? x = some f := by
  induction xs generalizing s with
  | nil => cases h
  | cons x xs ih =>
    rw [emitAll, List.mem_append] at h
    rcases h with h | h
    · exact ⟨x, by simp, s, by simpa using h⟩
    · obtain ⟨y, hMem, hy⟩ := ih h
      exact ⟨y, by simp [hMem], hy⟩

end State

namespace Voice

variable {voice : List Char}

/-- Every fragment of a voice is plain. -/
theorem plain_of_mem_fragments {f : Fragment} (h : f ∈ fragments voice) : f.Plain := by
  obtain ⟨g, hg, hEq⟩ := Fragment.mem_resolveAfter h
  obtain ⟨x, hx, s, hEmit⟩ := State.exists_emit?_of_mem_emitAll hg
  have hPlain : g.Plain := State.emit?_plain (Lexeme.written_of_mem_tokenize hx) hEmit
  rcases hEq with rfl | rfl
  · exact hPlain
  · exact hPlain.silence

/-- What is copied into a voice is what one of its lexemes emits. -/
theorem exists_emit?_of_verbatim {text : List Char} (h : .verbatim text ∈ fragments voice) :
    ∃ x ∈ Lexeme.tokenize voice, ∃ s : State, s.emit? x = some (.verbatim text) := by
  obtain ⟨g, hg, hEq⟩ := Fragment.mem_resolveAfter h
  obtain rfl : g = .verbatim text := by
    rcases hEq with hEq | hEq
    · exact hEq.symm
    · exact Fragment.eq_verbatim_of_silence hEq.symm
  exact State.exists_emit?_of_mem_emitAll hg

theorem isCommandWord_of_mem_fragments
    (hNumbers : ∀ x ∈ Lexeme.tokenize voice, x.token ≠ .number) {text : List Char}
    (h : .verbatim text ∈ fragments voice) : IsCommandWord text := by
  obtain ⟨x, hx, s, hEmit⟩ := exists_emit?_of_verbatim h
  refine (State.emit?_verbatim (Lexeme.written_of_mem_tokenize hx) hEmit).resolve_right ?_
  rintro ⟨-, hToken⟩
  exact hNumbers x hx hToken

end Voice

end Drumline
