import Drumline.Proofs.Token.Spelling
import Mathlib.Computability.RegularExpressions

/-! The grammar of the tokens.  Each kind of token has a regular expression, and `Kind.token` says
which token a text of that kind stands for.  The main statement is `written_iff`, that the texts
which the reader takes for tokens are those that match an expression. -/

namespace Drumline.Token

open RegularExpression

/-- The kinds of token, in the order of the grammar. -/
inductive Kind where
  | octaveSet
  | octaveUp
  | octaveDown
  | lengthMacro
  | tie
  | note
  | rest
  | absolute
  | volume
  | tempo
  | number
  deriving DecidableEq

/-! ### Regular expressions -/

namespace Pattern

def oneOf (chars : List Char) : RegularExpression Char := (chars.map char).sum

def optional (p : RegularExpression Char) : RegularExpression Char := 1 + p

def digit : RegularExpression Char := oneOf "0123456789".toList

def digits : RegularExpression Char := star digit

def numeral : RegularExpression Char := digit * digits

def dot : RegularExpression Char := optional (char '.')

end Pattern

open Pattern

/-- The regular expression for the texts of a kind. -/
def Kind.pattern : Kind → RegularExpression Char
  | octaveSet => char 'o' * numeral
  | octaveUp => char '>'
  | octaveDown => char '<'
  | lengthMacro => char 'l' * numeral * dot
  | tie => char '&'
  | note => oneOf "abcdefg".toList * optional (oneOf "+-".toList) * digits * dot
  | rest => char 'r' * digits * dot
  | absolute => char 'n' * numeral * dot
  | volume => char 'v' * numeral
  | tempo => char 't' * numeral
  | number => numeral * dot + char '.'

def Kind.Matches (kind : Kind) (text : List Char) : Prop := text ∈ kind.pattern.matches'

/-! ### What a text says -/

def digitsOf (text : List Char) : List Char := text.filter Char.isDigit

/-- The exact value of the digits of a text, at most `2 ^ bits - 1`. -/
def valueWithin (bits : Nat) (text : List Char) : Nat :=
  min (Numeral.value (digitsOf text)) (2 ^ bits - 1)

def endsInDot (text : List Char) : Bool := text.getLast? = some '.'

def accidentalOf (text : List Char) : Accidental :=
  if '+' ∈ text then .sharp else if '-' ∈ text then .flat else .natural

def durationOf (text : List Char) : Duration :=
  ⟨if digitsOf text = [] then none else some (UInt32.ofNat (valueWithin 32 text)), endsInDot text⟩

/-- The token that a text of the kind stands for. -/
def Kind.token (text : List Char) : Kind → Token
  | octaveSet => .octaveSet (valueWithin 63 text)
  | octaveUp => .octaveUp
  | octaveDown => .octaveDown
  | lengthMacro => .lengthMacro ⟨UInt32.ofNat (valueWithin 32 text), endsInDot text⟩
  | tie => .tie
  | note => .note (text.headD 'c') (accidentalOf text) (durationOf text)
  | rest => .rest (durationOf text)
  | absolute => .absolute (digitsOf text) ⟨none, endsInDot text⟩
  | volume => .volume
  | tempo => .tempo
  | number => .number

/-! ### Matching -/

variable {text digits : List Char} {token : Token} {kind : Kind}

theorem isDigit_iff {c : Char} : c.isDigit = true ↔ c ∈ "0123456789".toList := by
  have hBounds : c.isDigit = true ↔ 48 ≤ c.toNat ∧ c.toNat ≤ 57 := by
    simp only [Char.isDigit, Bool.and_eq_true, decide_eq_true_eq, ge_iff_le,
      UInt32.le_iff_toNat_le]
    rfl
  have hChars : ∀ d : Char, c = d ↔ c.toNat = d.toNat := fun d => Char.toNat_inj.symm
  rw [hBounds, show "0123456789".toList =
    ['0', '1', '2', '3', '4', '5', '6', '7', '8', '9'] from rfl]
  simp only [List.mem_cons, List.not_mem_nil, or_false, hChars, Char.reduceToNat]
  omega

theorem mem_char {c : Char} : text ∈ (char c).matches' ↔ text = [c] := Iff.rfl

theorem mem_add {p q : RegularExpression Char} :
    text ∈ (p + q).matches' ↔ text ∈ p.matches' ∨ text ∈ q.matches' := Iff.rfl

theorem mem_mul {p q : RegularExpression Char} :
    text ∈ (p * q).matches' ↔ ∃ a b, a ∈ p.matches' ∧ b ∈ q.matches' ∧ text = a ++ b := by
  rw [matches'_mul, Language.mem_mul]
  constructor
  · rintro ⟨a, ha, b, hb, rfl⟩
    exact ⟨a, b, ha, hb, rfl⟩
  · rintro ⟨a, b, ha, hb, rfl⟩
    exact ⟨a, ha, b, hb, rfl⟩

theorem mem_oneOf {chars : List Char} :
    text ∈ (oneOf chars).matches' ↔ ∃ c ∈ chars, text = [c] := by
  induction chars with
  | nil => simp [oneOf]
  | cons c chars ih =>
    rw [show oneOf (c :: chars) = char c + oneOf chars from rfl, mem_add, mem_char, ih]
    simp

theorem mem_digits : text ∈ Pattern.digits.matches' ↔ ∀ c ∈ text, c.isDigit = true := by
  rw [Pattern.digits, matches'_star, Language.mem_kstar]
  constructor
  · rintro ⟨texts, rfl, hTexts⟩ c hc
    obtain ⟨t, ht, hc⟩ := List.mem_flatten.mp hc
    obtain ⟨d, hd, rfl⟩ := mem_oneOf.mp (hTexts t ht)
    rw [List.mem_singleton.mp hc, isDigit_iff]
    exact hd
  · intro h
    refine ⟨text.map fun c => [c], ?_, fun t ht => ?_⟩
    · rw [← List.flatMap_def, List.flatMap_singleton']
    · obtain ⟨c, hc, rfl⟩ := List.mem_map.mp ht
      exact mem_oneOf.mpr ⟨c, isDigit_iff.mp (h c hc), rfl⟩

theorem mem_numeral : text ∈ numeral.matches' ↔ Numeral.isNumeral text = true := by
  rw [numeral, mem_mul]
  constructor
  · rintro ⟨a, b, ha, hb, rfl⟩
    obtain ⟨d, hd, rfl⟩ := mem_oneOf.mp ha
    have hDigits := mem_digits.mp hb
    rw [← isDigit_iff] at hd
    exact Numeral.isNumeral_iff.mpr ⟨by simp, by simpa [hd] using hDigits⟩
  · intro h
    obtain ⟨d, ds, rfl, hd, hds⟩ := Numeral.exists_cons h
    exact ⟨[d], ds, mem_oneOf.mpr ⟨d, isDigit_iff.mp hd, rfl⟩, mem_digits.mpr hds, rfl⟩

theorem mem_optional {p : RegularExpression Char} :
    text ∈ (Pattern.optional p).matches' ↔ text = [] ∨ text ∈ p.matches' := by
  rw [Pattern.optional, mem_add, matches'_epsilon, Language.mem_one]

theorem mem_dot : text ∈ dot.matches' ↔ ∃ dotted, text = dotText dotted := by
  rw [dot, mem_optional, mem_char]
  simp

theorem mem_char_mul_numeral {c : Char} : text ∈ (char c * numeral).matches' ↔
    ∃ digits, Numeral.isNumeral digits = true ∧ text = c :: digits := by
  rw [mem_mul]
  constructor
  · rintro ⟨a, digits, rfl, hDigits, rfl⟩
    exact ⟨digits, mem_numeral.mp hDigits, rfl⟩
  · rintro ⟨digits, hDigits, rfl⟩
    exact ⟨[c], digits, rfl, mem_numeral.mpr hDigits, rfl⟩

theorem mem_mul_dot {p : RegularExpression Char} : text ∈ (p * dot).matches' ↔
    ∃ body dotted, body ∈ p.matches' ∧ text = body ++ dotText dotted := by
  rw [mem_mul]
  constructor
  · rintro ⟨body, last, hBody, hLast, rfl⟩
    obtain ⟨dotted, rfl⟩ := mem_dot.mp hLast
    exact ⟨body, dotted, hBody, rfl⟩
  · rintro ⟨body, dotted, hBody, rfl⟩
    exact ⟨body, dotText dotted, hBody, mem_dot.mpr ⟨dotted, rfl⟩, rfl⟩

theorem isSign_iff {c : Char} : isSign c = true ↔ c ∈ "+-".toList := by
  simp [isSign]

theorem mem_optional_sign : text ∈ (Pattern.optional (oneOf "+-".toList)).matches' ↔
    ∃ sign : Option Char, (∀ c ∈ sign, isSign c = true) ∧ text = sign.toList := by
  rw [mem_optional, mem_oneOf]
  constructor
  · rintro (rfl | ⟨c, hc, rfl⟩)
    · exact ⟨none, by simp, rfl⟩
    · exact ⟨some c, by simpa [isSign_iff] using hc, rfl⟩
  · rintro ⟨sign, hSign, rfl⟩
    cases sign with
    | none => exact .inl rfl
    | some c => exact .inr ⟨c, isSign_iff.mp (hSign c rfl), rfl⟩

/-! ### Reading what matches -/

theorem readOctave_eq (digits : List Char) :
    readOctave digits = (min (Numeral.value digits) (2 ^ 63 - 1) : Nat) := by
  rw [readOctave, Numeral.readWord, Numeral.readUpTo_eq_min]
  unfold Numeral.greatestWord Pitch.greatest
  omega

theorem readShortWord_eq (digits : List Char) :
    Numeral.readShortWord digits = UInt32.ofNat (min (Numeral.value digits) (2 ^ 32 - 1)) := by
  rw [Numeral.readShortWord, Numeral.readWord, Numeral.readUpTo_eq_min]
  congr 1
  unfold Numeral.greatestWord
  omega

theorem durationOf_eq (text : List Char) :
    durationOf text = .ofParts (digitsOf text) (endsInDot text) := by
  rw [Duration.ofParts, readShortWord_eq]
  simp [durationOf, valueWithin]

/-! What a text says that has its digits and its dot behind other characters. -/

section Parts

variable (before : List Char) (hDigits : ∀ c ∈ digits, c.isDigit = true) (dotted : Bool)

include hDigits

theorem digitsOf_append (hBefore : ∀ c ∈ before, c.isDigit = false) :
    digitsOf (before ++ digits ++ dotText dotted) = digits := by
  have hDot : digitsOf (dotText dotted) = [] := by cases dotted <;> rfl
  have hNone : digitsOf before = [] := List.filter_eq_nil_iff.mpr (by simpa using hBefore)
  rw [digitsOf, List.filter_append, List.filter_append, List.filter_eq_self.mpr hDigits,
    ← digitsOf, ← digitsOf, hNone, hDot, List.nil_append, List.append_nil]

theorem endsInDot_append (hBefore : '.' ∉ before) :
    endsInDot (before ++ digits ++ dotText dotted) = dotted := by
  cases dotted with
  | true => simp [endsInDot]
  | false =>
    have hNot : '.' ∉ before ++ digits := by
      rw [List.mem_append, not_or]
      exact ⟨hBefore, fun hDot => absurd (hDigits _ hDot) (by decide)⟩
    have hLast : (before ++ digits).getLast? ≠ some '.' := fun hDot =>
      hNot (List.mem_of_getLast? hDot)
    simp only [endsInDot, dotText_false, List.append_nil, hLast, decide_false]

theorem durationOf_append (hBefore : ∀ c ∈ before, c.isDigit = false) (hDot : '.' ∉ before) :
    durationOf (before ++ digits ++ dotText dotted) = .ofParts digits dotted := by
  rw [durationOf_eq, digitsOf_append before hDigits dotted hBefore,
    endsInDot_append before hDigits dotted hDot]

theorem mem_sign_iff {letter c : Char} {sign : Option Char} (hLetter : isNoteLetter letter = true)
    (hc : isSign c = true) :
    c ∈ letter :: (sign.toList ++ digits ++ dotText dotted) ↔ sign = some c := by
  have hNotLetter : c ≠ letter := by
    rintro rfl
    rcases isNoteLetter_iff.mp hLetter with rfl | rfl | rfl | rfl | rfl | rfl | rfl <;> cases hc
  have hNotDigit : c ∉ digits := fun h => by
    simp [isSign_eq_false_of_isDigit (hDigits c h)] at hc
  have hNotDot : c ∉ dotText dotted := by
    rintro h
    cases dotted with
    | true =>
      rw [List.mem_singleton.mp h] at hc
      cases hc
    | false => cases h
  simp [hNotLetter, hNotDigit, hNotDot]

theorem accidentalOf_append {letter : Char} {sign : Option Char}
    (hLetter : isNoteLetter letter = true) (hSign : ∀ c ∈ sign, isSign c = true) :
    accidentalOf (letter :: (sign.toList ++ digits ++ dotText dotted)) = .ofSign sign := by
  rw [accidentalOf, if_congr (mem_sign_iff (c := '+') hDigits dotted hLetter rfl) rfl rfl,
    if_congr (mem_sign_iff (c := '-') hDigits dotted hLetter rfl) rfl rfl]
  cases sign with
  | none => rfl
  | some c =>
    have hc := hSign c rfl
    simp only [isSign, Bool.or_eq_true, beq_iff_eq] at hc
    rcases hc with rfl | rfl <;> rfl

end Parts

/-- The first characters of the texts of a kind. -/
def Kind.ofHead? : Char → Option Kind
  | 'o' => some octaveSet
  | '>' => some octaveUp
  | '<' => some octaveDown
  | 'l' => some lengthMacro
  | '&' => some tie
  | 'r' => some rest
  | 'n' => some absolute
  | 'v' => some volume
  | 't' => some tempo
  | '.' => some number
  | c => if isNoteLetter c then some note else if c.isDigit then some number else none

theorem Kind.ofHead?_of_isNoteLetter {c : Char} (h : isNoteLetter c = true) :
    ofHead? c = some note := by
  rcases isNoteLetter_iff.mp h with rfl | rfl | rfl | rfl | rfl | rfl | rfl <;> rfl

theorem Kind.ofHead?_of_isDigit {c : Char} (h : c.isDigit = true) : ofHead? c = some number := by
  have hDigits := isDigit_iff.mp h
  rw [show "0123456789".toList =
    ['0', '1', '2', '3', '4', '5', '6', '7', '8', '9'] from rfl] at hDigits
  simp only [List.mem_cons, List.not_mem_nil, or_false] at hDigits
  rcases hDigits with rfl | rfl | rfl | rfl | rfl | rfl | rfl | rfl | rfl | rfl <;> rfl

theorem Kind.Matches.exists_cons (h : kind.Matches text) :
    ∃ c tail token, text = c :: tail ∧ Kind.ofHead? c = some kind ∧ Written text token := by
  unfold Kind.Matches at h
  cases kind with
  | octaveSet =>
    obtain ⟨digits, hDigits, rfl⟩ := mem_char_mul_numeral.mp h
    exact ⟨_, _, _, rfl, rfl, .octaveSet hDigits⟩
  | octaveUp =>
    obtain rfl := mem_char.mp h
    exact ⟨_, _, _, rfl, rfl, .octaveUp⟩
  | octaveDown =>
    obtain rfl := mem_char.mp h
    exact ⟨_, _, _, rfl, rfl, .octaveDown⟩
  | lengthMacro =>
    obtain ⟨body, dotted, hBody, rfl⟩ := mem_mul_dot.mp h
    obtain ⟨digits, hDigits, rfl⟩ := mem_char_mul_numeral.mp hBody
    exact ⟨_, _, _, rfl, rfl, .lengthMacro hDigits dotted⟩
  | tie =>
    obtain rfl := mem_char.mp h
    exact ⟨_, _, _, rfl, rfl, .tie⟩
  | note =>
    obtain ⟨body, dotted, hBody, rfl⟩ := mem_mul_dot.mp h
    obtain ⟨start, digits, hStart, hDigits, rfl⟩ := mem_mul.mp hBody
    obtain ⟨first, last, hFirst, hLast, rfl⟩ := mem_mul.mp hStart
    obtain ⟨letter, hLetter, rfl⟩ := mem_oneOf.mp hFirst
    obtain ⟨sign, hSign, rfl⟩ := mem_optional_sign.mp hLast
    have hNote : isNoteLetter letter = true := isNoteLetter_iff.mpr (by simpa using hLetter)
    exact ⟨_, _, _, rfl, ofHead?_of_isNoteLetter hNote,
      .note hNote hSign (mem_digits.mp hDigits) dotted⟩
  | rest =>
    obtain ⟨body, dotted, hBody, rfl⟩ := mem_mul_dot.mp h
    obtain ⟨first, digits, rfl, hDigits, rfl⟩ := mem_mul.mp hBody
    exact ⟨_, _, _, rfl, rfl, .rest (mem_digits.mp hDigits) dotted⟩
  | absolute =>
    obtain ⟨body, dotted, hBody, rfl⟩ := mem_mul_dot.mp h
    obtain ⟨digits, hDigits, rfl⟩ := mem_char_mul_numeral.mp hBody
    exact ⟨_, _, _, rfl, rfl, .absolute hDigits dotted⟩
  | volume =>
    obtain ⟨digits, hDigits, rfl⟩ := mem_char_mul_numeral.mp h
    exact ⟨_, _, _, rfl, rfl, .volume hDigits⟩
  | tempo =>
    obtain ⟨digits, hDigits, rfl⟩ := mem_char_mul_numeral.mp h
    exact ⟨_, _, _, rfl, rfl, .tempo hDigits⟩
  | number =>
    rcases mem_add.mp h with h | h
    · obtain ⟨digits, dotted, hDigits, rfl⟩ := mem_mul_dot.mp h
      have hNumeral := mem_numeral.mp hDigits
      obtain ⟨d, ds, rfl, hDigit, -⟩ := Numeral.exists_cons hNumeral
      exact ⟨d, _, _, rfl, ofHead?_of_isDigit hDigit, .number hNumeral dotted⟩
    · obtain rfl := mem_char.mp h
      exact ⟨_, _, _, rfl, rfl, .dot⟩

/-- The text of a token matches, and its kind gives this token. -/
theorem Written.exists_kind (h : Written text token) :
    ∃ kind : Kind, kind.Matches text ∧ kind.token text = token := by
  have hNumeral : ∀ {digits : List Char}, Numeral.isNumeral digits = true →
      ∀ c ∈ digits, c.isDigit = true := fun h => (Numeral.isNumeral_iff.mp h).2
  have hPlain : ∀ {d : Char}, d.isDigit = false → ∀ c ∈ [d], c.isDigit = false :=
    fun h => List.forall_mem_singleton.mpr h
  cases h with
  | @octaveSet digits h =>
    refine ⟨.octaveSet, mem_char_mul_numeral.mpr ⟨digits, h, rfl⟩, ?_⟩
    have hDigits : digitsOf ('o' :: digits) = digits := by
      simpa using digitsOf_append ['o'] (hNumeral h) false (hPlain rfl)
    rw [Kind.token, valueWithin, hDigits, readOctave_eq]
  | octaveUp => exact ⟨.octaveUp, rfl, rfl⟩
  | octaveDown => exact ⟨.octaveDown, rfl, rfl⟩
  | @lengthMacro digits h dotted =>
    refine ⟨.lengthMacro, mem_mul_dot.mpr
      ⟨_, dotted, mem_char_mul_numeral.mpr ⟨digits, h, rfl⟩, rfl⟩, ?_⟩
    have hDigits : digitsOf ('l' :: (digits ++ dotText dotted)) = digits :=
      digitsOf_append ['l'] (hNumeral h) dotted (hPlain rfl)
    have hDot : endsInDot ('l' :: (digits ++ dotText dotted)) = dotted :=
      endsInDot_append ['l'] (hNumeral h) dotted (by decide)
    rw [Kind.token, valueWithin, hDigits, hDot, readShortWord_eq]
  | tie => exact ⟨.tie, rfl, rfl⟩
  | @note letter sign digits hLetter hSign hDigits dotted =>
    refine ⟨.note, mem_mul_dot.mpr ⟨_, dotted, mem_mul.mpr ⟨_, digits, mem_mul.mpr
      ⟨[letter], _, mem_oneOf.mpr ⟨letter, ?_, rfl⟩, mem_optional_sign.mpr ⟨sign, hSign, rfl⟩, rfl⟩,
      mem_digits.mpr hDigits, rfl⟩, by simp⟩, ?_⟩
    · simpa using isNoteLetter_iff.mp hLetter
    · have hBefore : ∀ c ∈ letter :: sign.toList, c.isDigit = false ∧ c ≠ '.' := by
        rintro c (_ | ⟨_, hc⟩)
        · rcases isNoteLetter_iff.mp hLetter with rfl | rfl | rfl | rfl | rfl | rfl | rfl <;> decide
        · rcases List.mem_pair.mp (isSign_iff.mp (hSign c (Option.mem_toList.mp hc))) with rfl | rfl
            <;> decide
      have hDuration : durationOf (letter :: (sign.toList ++ digits ++ dotText dotted)) =
          .ofParts digits dotted :=
        durationOf_append (letter :: sign.toList) hDigits dotted
          (fun c hc => (hBefore c hc).1) fun hDot => (hBefore _ hDot).2 rfl
      rw [Kind.token, accidentalOf_append hDigits dotted hLetter hSign, hDuration]
      rfl
  | @rest digits h dotted =>
    refine ⟨.rest, mem_mul_dot.mpr ⟨_, dotted, mem_mul.mpr ⟨['r'], digits, rfl,
      mem_digits.mpr h, rfl⟩, rfl⟩, ?_⟩
    exact congrArg Token.rest (durationOf_append ['r'] h dotted (hPlain rfl) (by decide))
  | @absolute digits h dotted =>
    refine ⟨.absolute, mem_mul_dot.mpr
      ⟨_, dotted, mem_char_mul_numeral.mpr ⟨digits, h, rfl⟩, rfl⟩, ?_⟩
    have hDigits : digitsOf ('n' :: (digits ++ dotText dotted)) = digits :=
      digitsOf_append ['n'] (hNumeral h) dotted (hPlain rfl)
    have hDot : endsInDot ('n' :: (digits ++ dotText dotted)) = dotted :=
      endsInDot_append ['n'] (hNumeral h) dotted (by decide)
    rw [Kind.token, hDigits, hDot]
  | @volume digits h => exact ⟨.volume, mem_char_mul_numeral.mpr ⟨digits, h, rfl⟩, rfl⟩
  | @tempo digits h => exact ⟨.tempo, mem_char_mul_numeral.mpr ⟨digits, h, rfl⟩, rfl⟩
  | @number digits h dotted =>
    exact ⟨.number, mem_add.mpr (.inl (mem_mul_dot.mpr ⟨digits, dotted, mem_numeral.mpr h, rfl⟩)),
      rfl⟩
  | dot => exact ⟨.number, mem_add.mpr (.inr rfl), rfl⟩

/-- Texts that start alike and match are of one kind. -/
theorem Kind.Matches.eq_of_head? {kind' : Kind} {text' : List Char} (h : kind.Matches text)
    (h' : kind'.Matches text') (hHead : text.head? = text'.head?) : kind = kind' := by
  obtain ⟨c, tail, -, rfl, hKind, -⟩ := h.exists_cons
  obtain ⟨c', tail', -, rfl, hKind', -⟩ := h'.exists_cons
  obtain rfl : c = c' := Option.some.inj hHead
  exact Option.some.inj (hKind.symm.trans hKind')

/-- A text is read as the token of the kind whose expression it matches. -/
theorem written_iff :
    Written text token ↔ ∃ kind : Kind, kind.Matches text ∧ kind.token text = token := by
  constructor
  · exact Written.exists_kind
  · rintro ⟨kind, h, rfl⟩
    obtain ⟨-, -, token, -, -, hWritten⟩ := h.exists_cons
    obtain ⟨kind', h', rfl⟩ := hWritten.exists_kind
    rwa [h.eq_of_head? h' rfl]

end Drumline.Token
