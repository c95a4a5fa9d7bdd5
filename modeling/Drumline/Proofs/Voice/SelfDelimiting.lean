import Drumline.Proofs.Compaction
import Mathlib.Data.List.Chain

/-! Reading a converted voice back.  Without spaces a word and the word behind it may be read as
one; `goesOn` says before which characters.  The main statements are `raws_tokenize_convert_iff`,
that the text without spaces has the lexemes of the text with spaces, up to the repeated macros,
exactly if no word goes on into the next one, and `isChain_apart_words`, that in a voice without
numbers no word does. -/

namespace Drumline

open Token (Written Shape dotText HeadNot headNot_cons)
open Lexeme (contents contents_written Ends ends_iff)

/-- A word that has no dot behind its digits: a volume or a tempo. -/
def isDotless (word : List Char) : Bool := word.head?.any fun c => c == 'v' || c == 't'

/-- The word is read on into a text that starts with `c`: digits behind digits or behind a rest, and
a dot behind either, if the word may have one. -/
def goesOn (word : List Char) (c : Char) : Bool :=
  (word == ['r'] || word.getLast?.any Char.isDigit) &&
    (c.isDigit || !isDotless word && c == '.')

/-- The first word is not read on into the second one. -/
def Apart (word next : List Char) : Prop := HeadNot (goesOn word) next

variable {word rest digits : List Char} {c : Char}

@[simp] theorem isDotless_cons (c : Char) (text : List Char) :
    isDotless (c :: text) = (c == 'v' || c == 't') := rfl

theorem isDotless_numeral (h : Numeral.isNumeral digits = true) : isDotless digits = false := by
  obtain ⟨d, ds, rfl, hDigit, -⟩ := Numeral.exists_cons h
  have hNot : ∀ c : Char, c.isDigit = false → d ≠ c := fun _ => ne_of_isDigit hDigit
  simp [hNot]

theorem goesOn_append_dot (word : List Char) (c : Char) : goesOn (word ++ ['.']) c = false := by
  have hRest : (word ++ ['.'] == ['r']) = false := by
    cases word <;> simp
  simp [goesOn, hRest, show Char.isDigit '.' = false from rfl]

theorem goesOn_append_digits (h : Numeral.isNumeral digits = true) (before : List Char) (c : Char) :
    goesOn (before ++ digits) c = (c.isDigit || !isDotless (before ++ digits) && c == '.') := by
  obtain ⟨hNe, hDigits⟩ := Numeral.isNumeral_iff.mp h
  have hLast : (before ++ digits).getLast?.any Char.isDigit = true := by
    rw [List.getLast?_append_of_ne_nil _ hNe, List.getLast?_eq_some_getLast hNe]
    exact hDigits _ (List.getLast_mem hNe)
  rw [goesOn, hLast, Bool.or_true, Bool.true_and]

theorem goesOn_numeral (h : Numeral.isNumeral digits = true) (c : Char) :
    goesOn digits c = (c.isDigit || c == '.') := by
  have hGoesOn := goesOn_append_digits h [] c
  rwa [List.nil_append, isDotless_numeral h] at hGoesOn

/-! ### Where tokens end -/

theorem headNot_congr {p q : Char → Bool} (h : ∀ c, p c = q c) :
    HeadNot p rest ↔ HeadNot q rest := by
  rw [show p = q from funext h]

theorem ends_unsigned_iff {count : Token.DigitCount} {dot dotted : Bool}
    (hHead : Shape.ofHead? c = some ⟨false, count, dot⟩)
    (ha : Shape.Admits ⟨false, count, dot⟩ ⟨none, digits, dotted⟩) :
    Ends (c :: (digits ++ dotText dotted)) rest ↔ (dotted = false →
      HeadNot (fun d => count != .none && d.isDigit || dot && d == '.') rest) := by
  refine (ends_iff hHead ha).trans ?_
  constructor
  · intro hs hDotted d hd
    simp only [Bool.or_eq_false_iff, Bool.and_eq_false_imp, bne_iff_ne, ne_eq]
    constructor
    · intro hCount
      exact hs.digits hCount hDotted d hd
    · intro hDot
      exact hs.dot hDot hDotted d hd
  · intro h
    refine ⟨nofun, ?_, ?_⟩
    · intro hCount hDotted d hd
      have hNot := h hDotted d hd
      simp_all
    · intro hDot hDotted d hd
      have hNot := h hDotted d hd
      simp_all

/-- A token that takes digits ends where its text does not go on. -/
theorem ends_iff_headNot {count : Token.DigitCount} {dot dotted : Bool}
    (hHead : Shape.ofHead? c = some ⟨false, count, dot⟩) (hCount : count ≠ .none)
    (ha : Shape.Admits ⟨false, count, dot⟩ ⟨none, digits, dotted⟩)
    (hGoesOn : ∀ d, goesOn (c :: digits) d = (d.isDigit || dot && d == '.')) :
    Ends (c :: (digits ++ dotText dotted)) rest ↔
      HeadNot (goesOn (c :: (digits ++ dotText dotted))) rest := by
  rw [ends_unsigned_iff hHead ha]
  cases dotted with
  | true =>
    have hDot := goesOn_append_dot (c :: digits)
    simp only [List.cons_append] at hDot
    simp [HeadNot, hDot]
  | false =>
    simp only [Token.dotText_false, List.append_nil, forall_const]
    refine headNot_congr fun d => ?_
    rw [hGoesOn, bne_iff_ne.mpr hCount, Bool.true_and]

theorem ends_letter_iff (h : Numeral.isNumeral digits = true) {dot : Bool} (dotted : Bool)
    (hHead : Shape.ofHead? c = some ⟨false, .some, dot⟩) (hDotted : dotted = true → dot = true)
    (hDot : (c == 'v' || c == 't') = !dot) :
    Ends (c :: (digits ++ dotText dotted)) rest ↔
      HeadNot (goesOn (c :: (digits ++ dotText dotted))) rest := by
  obtain ⟨hNe, hDigits⟩ := Numeral.isNumeral_iff.mp h
  refine ends_iff_headNot hHead nofun
    (Token.admits_unsigned hDigits nofun (fun _ => hNe) hDotted) fun d => ?_
  have hGoesOn := goesOn_append_digits h [c] d
  rwa [List.singleton_append, isDotless_cons, hDot, Bool.not_not] at hGoesOn

theorem ends_numeral_iff (h : Numeral.isNumeral digits = true) {dot : Bool}
    (hHead : Shape.ofHead? c = some ⟨false, .some, dot⟩)
    (hDot : (c == 'v' || c == 't') = !dot) :
    Ends (c :: digits) rest ↔ HeadNot (goesOn (c :: digits)) rest := by
  have hEnds : Ends (c :: (digits ++ dotText false)) rest ↔ _ :=
    ends_letter_iff h false hHead nofun hDot
  rwa [Token.dotText_false, List.append_nil] at hEnds

theorem ends_number_iff (h : Numeral.isNumeral digits = true) (dotted : Bool) :
    Ends (digits ++ dotText dotted) rest ↔ HeadNot (goesOn (digits ++ dotText dotted)) rest := by
  obtain ⟨d, ds, rfl, hDigit, hDigits⟩ := Numeral.exists_cons h
  refine ends_iff_headNot (Token.ofHead?_of_isDigit hDigit) nofun
    (Token.admits_unsigned hDigits nofun nofun fun _ => rfl) fun c => ?_
  rw [goesOn_numeral h, Bool.true_and]

theorem ends_singleton_iff (hHead : Shape.ofHead? c = some ⟨false, .none, false⟩)
    (hGoesOn : ∀ d, goesOn [c] d = false) : Ends [c] rest ↔ HeadNot (goesOn [c]) rest := by
  refine Iff.trans (ends_unsigned_iff hHead (Token.admits_empty (by decide))) ?_
  simp [HeadNot, hGoesOn]

/-! ### Words as tokens -/

/-- A note with a negative number is read from its digits on: its letter and its sign are strays. -/
theorem contents_negative (text : List Char) :
    contents ('n' :: '-' :: text) = contents text := by
  have hLetter : Lexeme.head 'n' ('-' :: text) = ⟨.stray, [], '-' :: text⟩ := rfl
  have hSign : Lexeme.head '-' text = ⟨.stray, [], text⟩ := rfl
  rw [Lexeme.contents_cons (by decide), hLetter, Lexeme.contents_cons (by decide), hSign]
  simp

/-- The word is read as one token, which ends where the word does not go on. -/
structure ReadsAs (word : List Char) (token : Token) (core : List Char) : Prop where
  written : Written core token
  contents : ∀ rest, contents (word ++ rest) = Lexeme.contents (core ++ rest)
  ends : ∀ rest, Ends core rest ↔ HeadNot (goesOn word) rest
  length? : token.length? = Length.parseMacro? word
  isAbsolute : token.isAbsolute = isNoteWord word

theorem IsWord.exists_readsAs (h : IsWord word) : ∃ token core, ReadsAs word token core := by
  cases h with
  | command h =>
    cases h with
    | lengthMacro h dotted =>
      exact ⟨_, _, .lengthMacro h dotted, fun _ => rfl,
        fun _ => ends_letter_iff h dotted rfl (fun _ => rfl) rfl,
        (Length.parseMacro?_append h dotted).symm, rfl⟩
    | volume h =>
      exact ⟨_, _, .volume h, fun _ => rfl, fun _ => ends_numeral_iff h rfl rfl, rfl, rfl⟩
    | tempo h =>
      exact ⟨_, _, .tempo h, fun _ => rfl, fun _ => ends_numeral_iff h rfl rfl, rfl, rfl⟩
  | number h =>
    cases h with
    | digits h dotted =>
      refine ⟨_, _, .number h dotted, fun _ => rfl, fun _ => ends_number_iff h dotted,
        (Written.number h dotted).parseMacro?_eq.symm, ?_⟩
      obtain ⟨d, ds, rfl, hDigit, -⟩ := Numeral.exists_cons h
      exact (isNoteWord_cons (ne_of_isDigit hDigit (by decide)) _).symm
    | dot =>
      exact ⟨_, _, .dot, fun _ => rfl, fun _ => ends_singleton_iff rfl (goesOn_append_dot []),
        rfl, rfl⟩
  | tie => exact ⟨_, _, .tie, fun _ => rfl, fun _ => ends_singleton_iff rfl fun _ => rfl, rfl, rfl⟩
  | rest =>
    refine ⟨_, _, @Written.rest [] (by simp) false, fun _ => rfl, fun _ => ?_, rfl, rfl⟩
    exact ends_iff_headNot rfl nofun (Token.admits_empty (by decide)) fun d => by simp [goesOn]
  | note h =>
    rcases h with h | ⟨digits, h, rfl⟩
    · refine ⟨_, _, .absolute h false, fun _ => ?_, fun _ => ?_, rfl, h.symm⟩
      · simp
      · simpa using ends_numeral_iff h (c := 'n') rfl rfl
    · refine ⟨_, _, .number h false, fun rest => ?_, fun rest => ?_, rfl, ?_⟩
      · simpa using contents_negative (digits ++ rest)
      · have hWord : ∀ d, goesOn ('n' :: '-' :: digits) d = (d.isDigit || d == '.') :=
          goesOn_append_digits h ['n', '-']
        rw [ends_number_iff h, Token.dotText_false, List.append_nil]
        exact headNot_congr fun d => by rw [hWord, goesOn_numeral h]
      · exact (Numeral.isNumeral_negative digits).symm

namespace ReadsAs

variable {token : Token} {core : List Char}

theorem contents_self (h : ReadsAs word token core) : Lexeme.contents word = [(token, core)] := by
  have hContents := h.contents []
  rwa [List.append_nil, List.append_nil, contents_written h.written] at hContents

theorem raws_append_iff (h : ReadsAs word token core) {xs : List (Token × List Char)} :
    (Lexeme.contents (word ++ rest)).map (·.2) = (Lexeme.contents word ++ xs).map (·.2) ↔
      HeadNot (goesOn word) rest ∧ (Lexeme.contents rest).map (·.2) = xs.map (·.2) := by
  rw [h.contents, h.contents_self, ← h.ends, ← Lexeme.raws_contents_written_append_iff h.written]
  rfl

end ReadsAs

theorem headNot_flatten_iff {p : Char → Bool} {words : List (List Char)}
    (h : ∀ word ∈ words, word ≠ []) :
    HeadNot p words.flatten ↔ ∀ word ∈ words.head?, HeadNot p word := by
  cases words with
  | nil => simp
  | cons word words =>
    obtain ⟨c, tail, rfl⟩ := List.exists_cons_of_ne_nil (h word (by simp))
    simp

/-- Words without spaces are read one by one exactly if none goes on into the next one. -/
theorem raws_contents_flatten_iff {words : List (List Char)} (h : ∀ word ∈ words, IsWord word) :
    (contents words.flatten).map (·.2) = (words.flatMap contents).map (·.2) ↔
      words.IsChain Apart := by
  induction words with
  | nil => simp
  | cons word words ih =>
    have hWords : ∀ next ∈ words, IsWord next := fun next hNext =>
      h next (List.mem_cons_of_mem _ hNext)
    obtain ⟨token, core, hWord⟩ := (h word (by simp)).exists_readsAs
    rw [List.flatten_cons, List.flatMap_cons, hWord.raws_append_iff, ih hWords,
      headNot_flatten_iff fun next hNext => (hWords next hNext).ne_nil, List.isChain_cons]
    rfl

/-- To drop the repeated macros of the words is to drop those of their lexemes. -/
theorem flatMap_contents_dropRepeats {words : List (List Char)} (h : ∀ word ∈ words, IsWord word)
    (last : Option Length) : (dropRepeats Length.parseMacro? last words).flatMap contents =
      dropRepeats (·.1.length?) last (words.flatMap contents) := by
  induction words generalizing last with
  | nil => rfl
  | cons word words ih =>
    have hWords := ih fun next hNext => h next (List.mem_cons_of_mem _ hNext)
    obtain ⟨token, core, hWord⟩ := (h word (by simp)).exists_readsAs
    rw [List.flatMap_cons, hWord.contents_self, List.singleton_append, dropRepeats, dropRepeats,
      hWord.length?]
    split
    · exact hWords last
    · rw [List.flatMap_cons, hWord.contents_self, hWords, List.singleton_append]

/-! ### The converted voice -/

theorem apart_of_headNot {word next : List Char} (h : HeadNot Token.isInner next) :
    Apart word next := by
  intro c hc
  have hInner := h c hc
  simp only [Token.isInner, Bool.or_eq_false_iff] at hInner
  simp [goesOn, hInner]

namespace Voice

/-- In a voice without numbers no word goes on into the next one. -/
theorem isChain_apart_words {voice : List Char}
    (hNumbers : ∀ x ∈ Lexeme.tokenize voice, x.token ≠ .number) :
    (dropRepeats Length.parseMacro? none (words voice)).IsChain Apart := by
  rw [List.isChain_iff_forall_rel_of_append_cons_cons]
  intro word next before after hWords
  have hKept : next ∈ dropRepeats Length.parseMacro? none (words voice) := by simp [hWords]
  have hNext := mem_of_mem_dropRepeats hKept
  obtain ⟨c, tail, rfl, hc⟩ := exists_cons_of_mem_words hNumbers hNext
  exact apart_of_headNot (headNot_cons.mpr hc)

/-- The lexemes of a converted voice are those of the voice with spaces, less each macro that
repeats the one before it, exactly if no word that is left goes on into the next one. -/
theorem raws_tokenize_convert_iff (voice : List Char) :
    (Lexeme.tokenize (convert voice)).map (·.raw) =
        (dropRepeats (·.token.length?) none (Lexeme.tokenize (spaced voice))).map (·.raw) ↔
      (dropRepeats Length.parseMacro? none (words voice)).IsChain Apart := by
  have hWords : ∀ word ∈ words voice, IsWord word := fun _ => isWord_of_mem_words
  have hRaws : ∀ xs : List Lexeme, xs.map (·.raw) = (xs.map Lexeme.content).map (·.2) := by
    intro xs
    rw [List.map_map]
    rfl
  have hSpaced : (dropRepeats (·.token.length?) none (Lexeme.tokenize (spaced voice))).map
      Lexeme.content = (dropRepeats Length.parseMacro? none (words voice)).flatMap contents := by
    rw [flatMap_contents_dropRepeats hWords, ← Lexeme.contents_intercalate, ← spaced_eq_intercalate,
      contents, ← map_dropRepeats]
    rfl
  rw [hRaws, hRaws, hSpaced, convert_eq, ← raws_contents_flatten_iff fun word hMem =>
    hWords word (mem_of_mem_dropRepeats hMem)]
  rfl

end Voice

end Drumline
