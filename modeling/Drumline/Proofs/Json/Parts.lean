import Drumline.Json.Printer
import Drumline.Json.Read
import Drumline.Proofs.Token.Spelling

/-! Reading the printed parts of a document.  A reader takes off a text what the printer wrote,
whatever text stands behind it (`Reads`); only a number has to stop there.  The main statements are
`reads_readString`, that a string is read back from its quoted text, and `reads_readNumber`, that
the digits of an integer are read as one number. -/

namespace Drumline.Json

open Token (HeadNot)

section Reads

variable {α β : Type} {text text' rest rest' : List Char} {value : α} {value' : β}

/-- The reading takes the value off the text and leaves the rest. -/
def Reads (r : Reading α text) (value : α) (rest : List Char) : Prop :=
  ∃ h, r = .ok ⟨value, rest, h⟩

theorem Reads.map {r : Reading α text} {f : Read α text → Read β text'} (h : Reads r value rest)
    (hValue : ∀ r, r.value = value → r.rest = rest → (f r).value = value')
    (hRest : ∀ r, r.value = value → r.rest = rest → (f r).rest = rest') :
    Reads (r.map f) value' rest' := by
  obtain ⟨hle, rfl⟩ := h
  obtain rfl := hValue ⟨value, rest, hle⟩ rfl rfl
  obtain rfl := hRest ⟨value, rest, hle⟩ rfl rfl
  exact ⟨(f ⟨value, rest, hle⟩).le, rfl⟩

theorem Reads.bind {r : Reading α text} {f : Read α text → Reading β text'}
    (h : Reads r value rest)
    (hNext : ∀ hle, Reads (f ⟨value, rest, hle⟩) value' rest') : Reads (r >>= f) value' rest' := by
  obtain ⟨hle, rfl⟩ := h
  exact hNext hle

theorem Reads.widen {r : Reading α text} (h : Reads r value rest)
    (hle : text.length ≤ text'.length) : Reads (r.map (·.widen hle)) value rest :=
  h.map (fun _ hValue _ => hValue) fun _ _ hRest => hRest

end Reads

variable {c : Char} {blanks text rest rest' : List Char} {use : Use}

theorem next?_cons (h : isBlank c = false) (text : List Char) :
    next? (c :: text) = some ⟨c, text, Nat.lt_succ_self _⟩ := by
  simp [next?, h]

theorem exists_next? (hBlanks : ∀ b ∈ blanks, isBlank b = true) (hc : isBlank c = false)
    (text : List Char) : ∃ h, next? (blanks ++ c :: text) = some ⟨c, text, h⟩ := by
  induction blanks with
  | nil => exact ⟨Nat.lt_succ_self _, next?_cons hc text⟩
  | cons b blanks ih =>
    obtain ⟨h, hNext⟩ := ih fun d hd => hBlanks d (List.mem_cons_of_mem _ hd)
    refine ⟨Nat.lt_trans h (Nat.lt_succ_self _), ?_⟩
    simp [next?, hBlanks b List.mem_cons_self, hNext]

theorem isBlank_of_mem_newline (depth : Nat) : ∀ b ∈ newline depth, isBlank b = true := by
  intro b hb
  rcases List.mem_cons.mp hb with rfl | hb
  · rfl
  · rw [List.eq_of_mem_replicate hb]
    rfl

theorem reads_readWord (letters rest : List Char) :
    Reads (readWord letters (letters ++ rest)) () rest := by
  induction letters with
  | nil => exact ⟨_, rfl⟩
  | cons letter letters ih =>
    rw [List.cons_append, readWord, if_pos rfl]
    exact ih.widen _

/-! ### Strings -/

theorem reads_readHex {a b c d : Char} {i j k l : Nat} (ha : hexValue? a = some i)
    (hb : hexValue? b = some j) (hc : hexValue? c = some k) (hd : hexValue? d = some l)
    (rest : List Char) :
    Reads (readHex (a :: b :: c :: d :: rest)) (((i * 16 + j) * 16 + k) * 16 + l) rest := by
  have hSize : ¬Text.byteSize (a :: b :: c :: d :: rest) < 4 := by
    have := a.utf8Size_pos
    have := b.utf8Size_pos
    have := c.utf8Size_pos
    have := d.utf8Size_pos
    simp only [Text.byteSize_cons]
    omega
  simp only [readHex, if_neg hSize, ha, hb, hc, hd]
  exact ⟨_, rfl⟩

theorem hexValue?_digitChar {n : Nat} (h : n < 16) : hexValue? (Nat.digitChar n) = some n := by
  have hAll : ∀ n : Fin 16, hexValue? (Nat.digitChar n) = some n.val := by decide
  exact hAll ⟨n, h⟩

theorem hexDigits_of_lt (h : c.toNat < 32) :
    Text.hexDigits 4 c =
      ['0', '0', Nat.digitChar (c.toNat / 16), Nat.digitChar (c.toNat % 16)] := by
  have hAll : ∀ n : Fin 32, Text.hexDigits 4 (Char.ofNat n) =
      ['0', '0', Nat.digitChar (n.val / 16), Nat.digitChar (n.val % 16)] := by decide
  simpa using hAll ⟨c.toNat, h⟩

theorem reads_readUnicode (h : c.toNat < 32) (use : Use) (rest : List Char) :
    Reads (readUnicode use (Text.hexDigits 4 c ++ rest)) c rest := by
  have hZero : hexValue? '0' = some 0 := rfl
  have hHex := reads_readHex hZero hZero (hexValue?_digitChar (n := c.toNat / 16) (by omega))
    (hexValue?_digitChar (n := c.toNat % 16) (by omega)) rest
  have hValue : ((0 * 16 + 0) * 16 + c.toNat / 16) * 16 + c.toNat % 16 = c.toNat := by omega
  rw [hValue] at hHex
  rw [hexDigits_of_lt h]
  refine Reads.bind hHex fun hle => ?_
  have hLeading : isLeading c.toNat = false := by
    simp only [isLeading, Bool.and_eq_false_iff, decide_eq_false_iff_not]
    omega
  have hTrailing : isTrailing c.toNat = false := by
    simp only [isTrailing, Bool.and_eq_false_iff, decide_eq_false_iff_not]
    omega
  rw [if_pos (by simp [hLeading, hTrailing])]
  exact ⟨hle, by simp only [Char.ofNat_toNat]; rfl⟩

/-- The ways in which a character of a string is written. -/
theorem escape_cases (c : Char) :
    (∃ letter, escape c = ['\\', letter] ∧ unescape? letter = some c) ∨
      (c.toNat < 32 ∧ escape c = '\\' :: 'u' :: Text.hexDigits 4 c) ∨
        c ≠ '"' ∧ c ≠ '\\' ∧ ¬c.toNat < 32 ∧ escape c = [c] := by
  by_cases hLetter : c ∈ ['"', '\\', '\x08', '\t', '\n', '\x0c', '\r']
  · have hAll : ['"', '\\', '\x08', '\t', '\n', '\x0c', '\r'].all (fun c =>
        escape c = ['\\', (escape c)[1]!] ∧ unescape? (escape c)[1]! = some c) = true := by decide
    exact .inl ⟨_, of_decide_eq_true (List.all_eq_true.mp hAll c hLetter)⟩
  · simp only [List.mem_cons, List.not_mem_nil, or_false, not_or] at hLetter
    by_cases hControl : c.toNat < 32
    · exact .inr (.inl ⟨hControl, by simp [escape, hLetter, hControl]⟩)
    · exact .inr (.inr ⟨hLetter.1, hLetter.2.1, hControl, by simp [escape, hLetter, hControl]⟩)

theorem reads_readString_escape {d : Char} {s : List Char}
    (hEscape : Reads (readEscape use text) d rest)
    (hRest : Reads (readString use rest) s rest') :
    Reads (readString use ('\\' :: text)) (d :: s) rest' := by
  rw [readString, if_neg (by decide), if_pos rfl]
  exact hEscape.bind fun _ => hRest.bind fun _ => ⟨_, rfl⟩

/-- A character of a string is read back, however it is written. -/
theorem reads_readString_cons {s : List Char} (h : Reads (readString use text) s rest) (c : Char) :
    Reads (readString use (escape c ++ text)) (c :: s) rest := by
  rcases escape_cases c with ⟨letter, hEscape, hLetter⟩ | ⟨hControl, hEscape⟩ |
    ⟨hQuote, hBackslash, hControl, hEscape⟩
  · rw [hEscape]
    change Reads (readString use ('\\' :: letter :: text)) (c :: s) rest
    have hRead : Reads (readEscape use (letter :: text)) c text := by
      simp only [readEscape, hLetter]
      exact ⟨Nat.le_succ _, rfl⟩
    exact reads_readString_escape hRead h
  · have hUnicode := reads_readUnicode hControl use text
    rw [hEscape]
    exact reads_readString_escape (hUnicode.widen (Nat.le_succ _)) h
  · rw [hEscape, List.singleton_append, readString, if_neg hQuote, if_neg hBackslash,
      if_neg hControl]
    exact h.bind fun _ => ⟨_, rfl⟩

theorem reads_readString (use : Use) (s rest : List Char) :
    Reads (readString use (s.flatMap escape ++ '"' :: rest)) s rest := by
  induction s with
  | nil =>
    rw [List.flatMap_nil, List.nil_append, readString, if_pos rfl]
    exact ⟨_, rfl⟩
  | cons c s ih =>
    rw [List.flatMap_cons, List.append_assoc]
    exact reads_readString_cons ih c

/-! ### Numbers -/

/-- A character that makes an integer that stands before it another number. -/
def isNumberPart (c : Char) : Bool := c.isDigit || c == '.' || c == 'e' || c == 'E'

theorem ofNat_eq_zero_or_head {n : Nat} : Numeral.ofNat n = ['0'] ∨
    ∃ d ds, Numeral.ofNat n = d :: ds ∧ d ≠ '0' ∧ d.isDigit = true := by
  induction n using Nat.strongRecOn with
  | ind n ih =>
    rw [Numeral.ofNat, Nat.toDigits_eq_if (by decide)]
    split
    · next h =>
      have hAll : ∀ n : Fin 10, Nat.digitChar n = '0' ∨
          Nat.digitChar n ≠ '0' ∧ (Nat.digitChar n).isDigit = true := by decide
      rcases hAll ⟨n, h⟩ with hZero | ⟨hNe, hDigit⟩
      · exact .inl (by simpa using hZero)
      · exact .inr ⟨_, [], rfl, hNe, hDigit⟩
    · next h =>
      rcases ih (n / 10) (by omega) with hZero | ⟨d, ds, hHead, hNe, hDigit⟩
      · -- the digits before the last one are those of a number that is not zero
        have hValue := Numeral.value_ofNat (n / 10)
        have hNone : Numeral.value ['0'] = 0 := rfl
        rw [hZero, hNone] at hValue
        omega
      · rw [Numeral.ofNat] at hHead
        exact .inr ⟨d, ds ++ [Nat.digitChar (n % 10)], by rw [hHead]; rfl, hNe, hDigit⟩

variable {digits : List Char}

theorem reads_readDigits (use : Use) (h : Numeral.isNumeral digits = true)
    (hRest : HeadNot Char.isDigit rest) :
    Reads (readDigits use (digits ++ rest)) digits rest := by
  obtain ⟨d, ds, rfl, hDigit, hDigits⟩ := Numeral.exists_cons h
  rw [List.cons_append, readDigits, if_pos hDigit]
  refine ⟨by simp only [List.length_cons, List.length_append]; omega, ?_⟩
  simp only [Token.takeWhile_append_of_headNot hDigits hRest,
    Token.dropWhile_append_of_headNot hDigits hRest]

theorem reads_readWhole (use : Use) (n : Nat) (hRest : HeadNot Char.isDigit rest) :
    Reads (readWhole use (Numeral.ofNat n ++ rest)) (Numeral.ofNat n) rest := by
  rcases ofNat_eq_zero_or_head with hZero | ⟨d, ds, hHead, hNe, -⟩
  · rw [hZero]
    cases rest with
    | nil => exact ⟨_, rfl⟩
    | cons c rest =>
      rw [List.singleton_append, readWhole, if_neg (by simpa using hRest)]
      exact ⟨_, rfl⟩
  · have hDigits := reads_readDigits use (Numeral.isNumeral_ofNat n) hRest
    rw [hHead] at hDigits ⊢
    rw [List.cons_append] at hDigits ⊢
    rw [readWhole]
    · exact hDigits
    · intro c rest h
      exact hNe (List.cons.inj h).1

theorem reads_readUnsigned (use : Use) (negative : Bool) (n : Nat)
    (hRest : HeadNot isNumberPart rest) :
    Reads (readUnsigned use negative (Numeral.ofNat n ++ rest))
      ⟨negative, Numeral.ofNat n, [], none⟩ rest := by
  have hPart : ∀ c ∈ rest.head?, c.isDigit = false ∧ c ≠ '.' ∧ c ≠ 'e' ∧ c ≠ 'E' := by
    intro c hc
    simpa [isNumberPart, and_assoc] using hRest c hc
  have hFraction : Reads (readFraction use rest) [] rest := by
    cases rest with
    | nil => exact ⟨_, rfl⟩
    | cons c rest =>
      rw [readFraction]
      · exact ⟨_, rfl⟩
      · rintro digits ⟨⟩
        exact (hPart '.' rfl).2.1 rfl
  have hExponent : Reads (readExponent use rest) none rest := by
    cases rest with
    | nil => exact ⟨_, rfl⟩
    | cons c rest =>
      refine ⟨Nat.le_refl _, ?_⟩
      unfold readExponent
      simp [hPart c rfl]
  exact (reads_readWhole use n fun c hc => (hPart c hc).1).bind fun _ => hFraction.bind fun _ =>
    hExponent.bind fun _ => ⟨_, rfl⟩

theorem ofInt_cases (i : Int) : Numeral.ofInt i = '-' :: Numeral.ofNat i.natAbs ∨
    Numeral.ofInt i = Numeral.ofNat i.natAbs := by
  unfold Numeral.ofInt
  split
  · exact .inl rfl
  · exact .inr rfl

theorem reads_readNumber (use : Use) (i : Int) (hRest : HeadNot isNumberPart rest) :
    ∃ n, Reads (readNumber use (Numeral.ofInt i ++ rest)) n rest := by
  rcases ofInt_cases i with hText | hText
  · rw [hText]
    exact ⟨_, (reads_readUnsigned use true i.natAbs hRest).widen _⟩
  · have hUnsigned := reads_readUnsigned use false i.natAbs hRest
    obtain ⟨d, ds, hHead, hDigit, -⟩ := Numeral.exists_cons (Numeral.isNumeral_ofNat i.natAbs)
    have hSigned : readNumber use (Numeral.ofNat i.natAbs ++ rest) =
        readUnsigned use false (Numeral.ofNat i.natAbs ++ rest) := by
      rw [hHead, List.cons_append, readNumber]
      intro tail h
      exact ne_of_isDigit hDigit (by decide) (List.cons.inj h).1
    rw [hText, hSigned]
    exact ⟨_, hUnsigned⟩

theorem isBlank_eq_false_of_number (h : c.isDigit = true ∨ c = '-') : isBlank c = false := by
  rw [← Bool.not_eq_true]
  intro hBlank
  simp only [isBlank, Bool.or_eq_true, beq_iff_eq] at hBlank
  rcases hBlank with ((rfl | rfl) | rfl) | rfl <;> exact absurd h (by decide)

theorem exists_ofInt_cons (i : Int) :
    ∃ c tail, Numeral.ofInt i = c :: tail ∧ (c.isDigit = true ∨ c = '-') := by
  rcases ofInt_cases i with hText | hText
  · exact ⟨_, _, hText, .inr rfl⟩
  · obtain ⟨d, ds, hHead, hDigit, -⟩ := Numeral.exists_cons (Numeral.isNumeral_ofNat i.natAbs)
    exact ⟨d, ds, hText.trans hHead, .inl hDigit⟩

end Drumline.Json
