import Drumline.Token.Basic
import Drumline.Proofs.Token.Tail

/-! The written forms of the tokens.  `Token.Written` lists, for each kind of token, the texts that
spell it.  The main statements are `exists_written`, that a first character and a tail which its
shape admits always spell a token, and `Written.read?`, that reading gives the token which a text
spells. -/

namespace Drumline

theorem Numeral.isNumeral_iff {text : List Char} :
    Numeral.isNumeral text = true ↔ text ≠ [] ∧ ∀ c ∈ text, c.isDigit = true := by
  simp [Numeral.isNumeral]

theorem ne_of_isDigit {c d : Char} (h : c.isDigit = true) (hd : d.isDigit = false) : c ≠ d := by
  rintro rfl
  simp [h] at hd

theorem Numeral.not_mem {digits : List Char} (h : Numeral.isNumeral digits = true) {c : Char}
    (hc : c.isDigit = false) : c ∉ digits :=
  fun hMem => ne_of_isDigit ((Numeral.isNumeral_iff.mp h).2 c hMem) hc rfl

theorem Numeral.exists_cons {digits : List Char} (h : Numeral.isNumeral digits = true) :
    ∃ d ds, digits = d :: ds ∧ d.isDigit = true ∧ ∀ c ∈ ds, c.isDigit = true := by
  obtain ⟨hNe, hDigits⟩ := Numeral.isNumeral_iff.mp h
  obtain ⟨d, ds, rfl⟩ := List.exists_cons_of_ne_nil hNe
  exact ⟨d, ds, rfl, hDigits d (by simp), fun c hc => hDigits c (by simp [hc])⟩

namespace Duration

open Token (dotText)

def ofParts (digits : List Char) (dotted : Bool) : Duration :=
  ⟨if digits.isEmpty then none else some (Numeral.readShortWord digits), dotted⟩

theorem splitDot_append {digits : List Char} (h : ∀ c ∈ digits, c.isDigit = true)
    (dotted : Bool) : splitDot (digits ++ dotText dotted) = (digits, dotted) := by
  cases dotted with
  | true => simp [splitDot]
  | false =>
    have hLast : digits.getLast? ≠ some '.' := fun hDot =>
      absurd (h '.' (List.mem_of_getLast? hDot)) (by decide)
    simp [splitDot, hLast]

theorem parse?_append {digits : List Char} (h : ∀ c ∈ digits, c.isDigit = true) (dotted : Bool) :
    parse? (digits ++ dotText dotted) = some (ofParts digits dotted) := by
  have hAll : digits.all Char.isDigit = true := List.all_eq_true.mpr h
  simp [parse?, splitDot_append h, hAll, ofParts]

end Duration

theorem Length.parseMacro?_append {digits : List Char} (h : Numeral.isNumeral digits = true)
    (dotted : Bool) : Length.parseMacro? ('l' :: (digits ++ Token.dotText dotted)) =
      some ⟨Numeral.readShortWord digits, dotted⟩ := by
  obtain ⟨hNe, hDigits⟩ := Numeral.isNumeral_iff.mp h
  simp [parseMacro?, Duration.parse?_append hDigits, Duration.ofParts, hNe]

theorem Length.parseMacro?_eq_none {c : Char} (h : c ≠ 'l') (text : List Char) :
    Length.parseMacro? (c :: text) = none := by
  simp [parseMacro?, h]

namespace Token

/-- The length that a macro sets. -/
def length? : Token → Option Length
  | lengthMacro length => some length
  | _ => none

def isAbsolute : Token → Bool
  | absolute _ _ => true
  | _ => false

theorem isNoteLetter_iff {c : Char} : isNoteLetter c = true ↔
    c = 'a' ∨ c = 'b' ∨ c = 'c' ∨ c = 'd' ∨ c = 'e' ∨ c = 'f' ∨ c = 'g' := by
  simp only [isNoteLetter, Bool.and_eq_true, decide_eq_true_eq, Char.le_def,
    UInt32.le_iff_toNat_le, ← Char.toNat_inj]
  change 97 ≤ c.toNat ∧ c.toNat ≤ 103 ↔ c.toNat = 97 ∨ c.toNat = 98 ∨ c.toNat = 99 ∨
    c.toNat = 100 ∨ c.toNat = 101 ∨ c.toNat = 102 ∨ c.toNat = 103
  omega

/-- The texts that spell a token. -/
inductive Written : List Char → Token → Prop
  | octaveSet {digits : List Char} (h : Numeral.isNumeral digits = true) :
      Written ('o' :: digits) (octaveSet (readOctave digits))
  | octaveUp : Written ['>'] octaveUp
  | octaveDown : Written ['<'] octaveDown
  | lengthMacro {digits : List Char} (h : Numeral.isNumeral digits = true) (dotted : Bool) :
      Written ('l' :: (digits ++ dotText dotted))
        (lengthMacro ⟨Numeral.readShortWord digits, dotted⟩)
  | tie : Written ['&'] tie
  | note {letter : Char} {sign : Option Char} {digits : List Char}
      (hLetter : isNoteLetter letter = true) (hSign : ∀ c ∈ sign, isSign c = true)
      (hDigits : ∀ c ∈ digits, c.isDigit = true) (dotted : Bool) :
      Written (letter :: (sign.toList ++ digits ++ dotText dotted))
        (note letter (.ofSign sign) (.ofParts digits dotted))
  | rest {digits : List Char} (h : ∀ c ∈ digits, c.isDigit = true) (dotted : Bool) :
      Written ('r' :: (digits ++ dotText dotted)) (rest (.ofParts digits dotted))
  | absolute {digits : List Char} (h : Numeral.isNumeral digits = true) (dotted : Bool) :
      Written ('n' :: (digits ++ dotText dotted)) (absolute digits ⟨none, dotted⟩)
  | volume {digits : List Char} (h : Numeral.isNumeral digits = true) :
      Written ('v' :: digits) volume
  | tempo {digits : List Char} (h : Numeral.isNumeral digits = true) :
      Written ('t' :: digits) tempo
  | number {digits : List Char} (h : Numeral.isNumeral digits = true) (dotted : Bool) :
      Written (digits ++ dotText dotted) number
  | dot : Written ['.'] number

variable {text : List Char} {token : Token} {c : Char} {shape : Shape} {t : Tail}

theorem isNoteLetter_eq_false_of_isDigit (h : c.isDigit = true) : isNoteLetter c = false := by
  rw [← Bool.not_eq_true, isNoteLetter_iff]
  rintro (rfl | rfl | rfl | rfl | rfl | rfl | rfl) <;> exact absurd h (by decide)

theorem read?_of_isDigit (h : c.isDigit = true) (tail : List Char) :
    read? (c :: tail) = some number := by
  have hLetter := isNoteLetter_eq_false_of_isDigit h
  unfold read?
  split <;> first | exact absurd h (by decide) | simp_all

/-- No sign stands between a sign and the digits behind it. -/
theorem headNot_isSign_append {digits : List Char} (hDigits : ∀ c ∈ digits, c.isDigit = true)
    (dotted : Bool) : HeadNot isSign (digits ++ dotText dotted) := by
  cases digits with
  | nil => cases dotted <;> simp [isSign]
  | cons d ds => simpa using isSign_eq_false_of_isDigit (hDigits d (by simp))

theorem read?_note {letter : Char} (hLetter : isNoteLetter letter = true) {sign : Option Char}
    (hSign : ∀ c ∈ sign, isSign c = true) {digits : List Char}
    (hDigits : ∀ c ∈ digits, c.isDigit = true) (dotted : Bool) :
    read? (letter :: (sign.toList ++ digits ++ dotText dotted)) =
      some (note letter (.ofSign sign) (.ofParts digits dotted)) := by
  have hHead := headNot_isSign_append hDigits dotted
  have hNote : readNote? letter (sign.toList ++ digits ++ dotText dotted) =
      some (note letter (.ofSign sign) (.ofParts digits dotted)) := by
    rw [readNote?, List.append_assoc, splitHead_append_of_headNot hSign fun _ => hHead]
    simp [Duration.parse?_append hDigits]
  have hRead : ∀ tail, read? (letter :: tail) = readNote? letter tail := by
    intro tail
    rcases isNoteLetter_iff.mp hLetter with rfl | rfl | rfl | rfl | rfl | rfl | rfl <;> rfl
  rw [hRead, hNote]

/-- A text that spells a token reads as this token. -/
theorem Written.read? (h : Written text token) : read? text = some token := by
  cases h with
  | octaveSet | octaveUp | octaveDown | tie | volume | tempo | dot => rfl
  | lengthMacro h dotted => simp [Token.read?, Length.parseMacro?_append h]
  | note hLetter hSign hDigits dotted => exact read?_note hLetter hSign hDigits dotted
  | rest h dotted => simp [Token.read?, Duration.parse?_append h]
  | absolute h dotted =>
    simp [Token.read?, readAbsolute, Duration.splitDot_append (Numeral.isNumeral_iff.mp h).2]
  | @number digits h dotted =>
    obtain ⟨d, ds, rfl, hDigit, -⟩ := Numeral.exists_cons h
    exact read?_of_isDigit hDigit _

theorem Written.parseMacro?_eq (h : Written text token) :
    Length.parseMacro? text = token.length? := by
  cases h with
  | octaveSet | octaveUp | octaveDown | tie | rest | absolute | volume | tempo | dot => rfl
  | lengthMacro h dotted => exact Length.parseMacro?_append h dotted
  | note hLetter =>
    refine Length.parseMacro?_eq_none ?_ _
    rintro rfl
    exact absurd hLetter (by decide)
  | @number digits h dotted =>
    obtain ⟨d, ds, rfl, hDigit, -⟩ := Numeral.exists_cons h
    exact Length.parseMacro?_eq_none (ne_of_isDigit hDigit (by decide)) _

theorem Written.isAbsolute_eq (h : Written text token) :
    token.isAbsolute = (text.head? == some 'n') := by
  cases h with
  | octaveSet | octaveUp | octaveDown | lengthMacro | tie | rest | absolute => rfl
  | volume | tempo | dot => rfl
  | note hLetter =>
    rcases isNoteLetter_iff.mp hLetter with rfl | rfl | rfl | rfl | rfl | rfl | rfl <;> rfl
  | @number digits h dotted =>
    obtain ⟨d, ds, rfl, hDigit, -⟩ := Numeral.exists_cons h
    simp [isAbsolute, ne_of_isDigit hDigit (show Char.isDigit 'n' = false from rfl)]

theorem Written.isNoteLetter {letter : Char} {accidental : Accidental} {duration : Duration}
    (h : Written text (.note letter accidental duration)) : isNoteLetter letter = true := by
  cases h
  assumption

theorem ofHead?_of_isDigit (h : c.isDigit = true) :
    Shape.ofHead? c = some ⟨false, .any, true⟩ := by
  have hNot : ∀ d : Char, d.isDigit = false → c ≠ d := fun _ => ne_of_isDigit h
  simp [Shape.ofHead?, h, hNot]

theorem ofHead?_of_isNoteLetter (h : isNoteLetter c = true) :
    Shape.ofHead? c = some ⟨true, .any, true⟩ := by
  rcases isNoteLetter_iff.mp h with rfl | rfl | rfl | rfl | rfl | rfl | rfl <;> rfl

theorem admits_unsigned {digits : List Char} {dotted : Bool}
    (hDigits : ∀ c ∈ digits, c.isDigit = true) (hNone : shape.digits = .none → digits = [])
    (hSome : shape.digits = .some → digits ≠ []) (hDot : dotted = true → shape.dot = true) :
    shape.Admits ⟨none, digits, dotted⟩ :=
  ⟨by simp, hDigits, hNone, hSome, hDot⟩

theorem admits_empty (h : shape.digits ≠ .some) : shape.Admits ⟨none, [], false⟩ :=
  admits_unsigned (by simp) (fun _ => rfl) (fun hSome => absurd hSome h) (by simp)

theorem Written.exists_tail (h : Written text token) : ∃ c shape t, text = c :: Tail.text t ∧
    Shape.ofHead? c = some shape ∧ shape.Admits t := by
  have hText : ∀ (c : Char) (digits : List Char) (dotted : Bool),
      c :: (digits ++ dotText dotted) = c :: Tail.text ⟨none, digits, dotted⟩ := fun _ _ _ => rfl
  have hPlain : ∀ (c : Char) (digits : List Char),
      c :: digits = c :: Tail.text ⟨none, digits, false⟩ := by simp [Tail.text]
  have hNumeral : ∀ {digits : List Char}, Numeral.isNumeral digits = true →
      digits ≠ [] ∧ ∀ c ∈ digits, c.isDigit = true := Numeral.isNumeral_iff.mp
  cases h with
  | octaveUp | octaveDown | tie | dot =>
    exact ⟨_, _, ⟨none, [], false⟩, rfl, rfl, admits_empty (by decide)⟩
  | @octaveSet digits h | @volume digits h | @tempo digits h =>
    refine ⟨_, _, _, hPlain _ digits, rfl, ?_⟩
    exact admits_unsigned (hNumeral h).2 (by simp) (fun _ => (hNumeral h).1) (by simp)
  | lengthMacro h dotted | absolute h dotted =>
    refine ⟨_, _, _, hText _ _ dotted, rfl, ?_⟩
    exact admits_unsigned (hNumeral h).2 (by simp) (fun _ => (hNumeral h).1) fun _ => rfl
  | rest h dotted =>
    exact ⟨_, _, _, hText _ _ dotted, rfl, admits_unsigned h (by simp) (by simp) fun _ => rfl⟩
  | @note letter sign digits hLetter hSign hDigits dotted =>
    exact ⟨letter, _, ⟨sign, digits, dotted⟩, rfl, ofHead?_of_isNoteLetter hLetter,
      fun c hc => ⟨rfl, hSign c hc⟩, hDigits, by simp, by simp, fun _ => rfl⟩
  | @number digits h dotted =>
    obtain ⟨d, ds, rfl, hDigit, hDigits⟩ := Numeral.exists_cons h
    refine ⟨d, _, _, hText d ds dotted, ofHead?_of_isDigit hDigit, ?_⟩
    exact admits_unsigned hDigits (by simp) (by simp) fun _ => rfl

/-- A first character and a tail that its shape admits spell a token. -/
theorem exists_written (hHead : Shape.ofHead? c = some shape) (ha : shape.Admits t) :
    ∃ token, Written (c :: t.text) token := by
  have hNone : shape.sign = false → t.text = t.digits ++ dotText t.dotted := fun h => by
    simp [Tail.text, ha.sign_eq_none h]
  have hDigits : shape.sign = false → shape.dot = false → t.text = t.digits := fun h h' => by
    simp [hNone h, ha.dotted_eq_false h']
  have hNumeral : shape.digits = .some → Numeral.isNumeral t.digits = true := fun h =>
    Numeral.isNumeral_iff.mpr ⟨ha.some h, ha.digits⟩
  unfold Shape.ofHead? at hHead
  split at hHead
  · next h =>
    cases hHead
    rw [hDigits rfl rfl, ha.none rfl]
    rcases h with rfl | rfl | rfl | rfl
    exacts [⟨_, .octaveUp⟩, ⟨_, .octaveDown⟩, ⟨_, .tie⟩, ⟨_, .dot⟩]
  split at hHead
  · next h =>
    cases hHead
    rw [hDigits rfl rfl]
    rcases h with rfl | rfl | rfl
    exacts [⟨_, .octaveSet (hNumeral rfl)⟩, ⟨_, .volume (hNumeral rfl)⟩, ⟨_, .tempo (hNumeral rfl)⟩]
  split at hHead
  · next h =>
    cases hHead
    rw [hNone rfl]
    rcases h with rfl | rfl
    exacts [⟨_, .lengthMacro (hNumeral rfl) _⟩, ⟨_, .absolute (hNumeral rfl) _⟩]
  split at hHead
  · next h =>
    cases hHead
    rw [hNone rfl]
    rcases h with rfl | h
    · exact ⟨_, .rest ha.digits _⟩
    · have hDigits : ∀ d ∈ c :: t.digits, d.isDigit = true := by simpa [h] using ha.digits
      exact ⟨_, .number (Numeral.isNumeral_iff.mpr ⟨by simp, hDigits⟩) _⟩
  split at hHead
  · next h =>
    cases hHead
    exact ⟨_, .note h (fun c hc => (ha.sign c hc).2) ha.digits _⟩
  · cases hHead

end Token

end Drumline
