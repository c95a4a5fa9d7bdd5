import Drumline.Compact
import Drumline.Proofs.Command
import Drumline.Proofs.Fragment.Words
import Mathlib.Data.List.Basic

/-! The runs of any text.  A run is a length macro (`IsMacro`) or a stretch without blanks in which
no macro comes first (`IsStretch`).  The main statement is `scan_induction`: a text is read run by
run, so that what is carried over a blank and over a first run (`IsFirst`) holds of every text. -/

namespace Drumline

open Token (dotText isInner HeadNot Shape)

/-- A digit or a dot: what makes a macro that stands before it longer. -/
def isDigitOrDot (c : Char) : Bool := c.isDigit || c == '.'

theorem isDigitOrDot_eq_false {c : Char} (h : isInner c = false) : isDigitOrDot c = false := by
  simp only [isInner, Bool.or_eq_false_iff] at h
  simp [isDigitOrDot, h]

namespace Run

variable {b c : Char} {text tail rest run digits : List Char} {dotted : Bool}

def texts (text : List Char) : List (List Char) := (scan text).map (·.text)

theorem isInner_eq_false_of_isBlank (h : Text.isBlank b = true) : isInner b = false := by
  rw [← Bool.not_eq_true]
  intro hInner
  simp only [isInner, Token.isSign, Char.isDigit, Bool.or_eq_true, Bool.and_eq_true, beq_iff_eq,
    decide_eq_true_eq, ge_iff_le, UInt32.le_iff_toNat_le] at hInner
  rcases hInner with ((rfl | rfl) | hDigit) | rfl
  · exact absurd h (by decide)
  · exact absurd h (by decide)
  · change 48 ≤ b.toNat ∧ b.toNat ≤ 57 at hDigit
    simp only [Text.isBlank, Text.blankRanges, List.any_cons, List.any_nil, Bool.or_eq_true,
      Bool.and_eq_true, decide_eq_true_eq, Bool.false_eq_true, or_false] at h
    omega
  · exact absurd h (by decide)

theorem splitMacro?_append_cons (h : isInner b = false) (c : Char) (text after : List Char) :
    splitMacro? c (text ++ b :: after) =
      (splitMacro? c text).map fun (tail, rest) => (tail, rest ++ b :: after) := by
  unfold splitMacro?
  split
  · exact Token.Shape.split?_append_cons h text after
  · rfl

theorem head_append_blank (h : Text.isBlank b = true) (c : Char) (text after : List Char) :
    head c (text ++ b :: after) =
      { head c text with rest := (head c text).rest ++ b :: after } := by
  have hSolid : isSolid b = false := by simp [isSolid, h]
  simp only [head, splitMacro?_append_cons (isInner_eq_false_of_isBlank h)]
  cases splitMacro? c text <;>
    simp [takeWhile_append_cons hSolid, dropWhile_append_cons hSolid]

theorem scanFrom_blank (h : Text.isBlank c = true) (start : Nat) (text : List Char) :
    scanFrom start (c :: text) = scanFrom (start + c.utf8Size) text := by
  rw [scanFrom, if_pos h]

theorem scanFrom_cons (h : Text.isBlank c = false) (start : Nat) (text : List Char) :
    scanFrom start (c :: text) =
      ⟨c :: (head c text).tail, start, (head c text).asMacro⟩ ::
        scanFrom (start + Text.byteSize (c :: (head c text).tail)) (head c text).rest := by
  rw [scanFrom, if_neg (by simp [h])]

theorem start_le_of_mem_scanFrom {start : Nat} {run : Run} (h : run ∈ scanFrom start text) :
    start ≤ run.start := by
  induction start, text using scanFrom.induct with
  | case1 start => simp [scanFrom] at h
  | case2 start c text hBlank ih =>
    rw [scanFrom_blank hBlank] at h
    have hRest := ih h
    omega
  | case3 start c text hBlank ih =>
    rw [scanFrom_cons (by simpa using hBlank), List.mem_cons] at h
    rcases h with rfl | h
    · exact Nat.le_refl start
    · have hRest := ih h
      omega

theorem scanFrom_append_blank (hb : Text.isBlank b = true) (start : Nat)
    (before after : List Char) : scanFrom start (before ++ b :: after) =
      scanFrom start before ++ scanFrom (start + Text.byteSize before) (b :: after) := by
  induction start, before using scanFrom.induct with
  | case1 start => simp [scanFrom]
  | case2 start c text hBlank ih =>
    rw [List.cons_append, scanFrom_blank hBlank, scanFrom_blank hBlank, ih, Text.byteSize_cons,
      Nat.add_assoc]
  | case3 start c text hBlank ih =>
    rw [Bool.not_eq_true] at hBlank
    have hSize : Text.byteSize (c :: text) =
        Text.byteSize (c :: (head c text).tail) + Text.byteSize (head c text).rest := by
      rw [← Text.byteSize_append, List.cons_append, head_append]
    rw [List.cons_append, scanFrom_cons hBlank, scanFrom_cons hBlank, head_append_blank hb, hSize]
    simp only [List.cons_append, ih, Nat.add_assoc]

theorem texts_scanFrom (start : Nat) (text : List Char) :
    (scanFrom start text).map (·.text) = texts text := by
  suffices h : ∀ start', (scanFrom start text).map (·.text) =
      (scanFrom start' text).map (·.text) from h 0
  induction start, text using scanFrom.induct with
  | case1 start => simp [scanFrom]
  | case2 start c text hBlank ih =>
    intro start'
    rw [scanFrom_blank hBlank, scanFrom_blank hBlank]
    exact ih _
  | case3 start c text hBlank ih =>
    intro start'
    rw [Bool.not_eq_true] at hBlank
    rw [scanFrom_cons hBlank, scanFrom_cons hBlank, List.map_cons, List.map_cons, ih]

theorem texts_intercalate (words : List (List Char)) :
    texts (List.intercalate [' '] words) = words.flatMap texts := by
  induction words with
  | nil => simp [texts, scan, scanFrom]
  | cons word words ih =>
    cases words with
    | nil => simp
    | cons next words =>
      have hSpace : Text.isBlank ' ' = true := by decide
      rw [List.intercalate_cons_cons, List.append_assoc, List.singleton_append, texts, scan,
        scanFrom_append_blank hSpace, scanFrom_blank hSpace, List.map_append, texts_scanFrom,
        texts_scanFrom, ih]
      rfl

theorem isBlank_eq_false_of_isInner (h : isInner c = true) : Text.isBlank c = false := by
  rw [← Bool.not_eq_true]
  intro hBlank
  rw [isInner_eq_false_of_isBlank hBlank] at h
  cases h

theorem isSolid_of_isInner (h : isInner c = true) : isSolid c = true := by
  simp [isSolid, isBlank_eq_false_of_isInner h]

/-! ### The first run -/

/-- The text of a length macro. -/
inductive IsMacro : List Char → Prop
  | intro {digits : List Char} (h : Numeral.isNumeral digits = true) (dotted : Bool) :
      IsMacro ('l' :: (digits ++ dotText dotted))

/-- A stretch without blanks that starts with no length macro. -/
structure IsStretch (text : List Char) : Prop where
  ne_nil : text ≠ []
  solid : ∀ c ∈ text, isSolid c = true
  no_macro : ∀ tail, text = 'l' :: tail → HeadNot Char.isDigit tail

/-- The run is the first one of the text that it makes with the rest. -/
inductive IsFirst : List Char → List Char → Prop
  | lengthMacro {digits rest : List Char} (h : Numeral.isNumeral digits = true) (dotted : Bool)
      (hRest : dotted = false → HeadNot isDigitOrDot rest) :
      IsFirst ('l' :: (digits ++ dotText dotted)) rest
  | stretch {run rest : List Char} (h : IsStretch run) (hRest : HeadNot isSolid rest) :
      IsFirst run rest

theorem splitMacro?_eq_none_iff (text : List Char) :
    splitMacro? 'l' text = none ↔ HeadNot Char.isDigit text := by
  have hSplit : splitMacro? 'l' text = none ↔ text.takeWhile Char.isDigit = [] := by
    simp [splitMacro?, Shape.split?, Shape.splitSign, Shape.splitDigits]
  rw [hSplit]
  cases text with
  | nil => simp
  | cons d text => cases hd : d.isDigit <;> simp [hd]

/-- What is cut off as a macro is one, up to where it stops. -/
theorem exists_of_splitMacro? (h : splitMacro? c text = some (tail, rest)) :
    c = 'l' ∧ ∃ digits dotted, Numeral.isNumeral digits = true ∧ tail = digits ++ dotText dotted ∧
      (dotted = false → HeadNot isDigitOrDot rest) := by
  unfold splitMacro? at h
  split at h
  · next hc =>
    obtain ⟨⟨sign, digits, dotted⟩, ha, hs, rfl⟩ := Shape.exists_tail h
    obtain rfl : sign = none := ha.sign_eq_none rfl
    refine ⟨hc, digits, dotted, Numeral.isNumeral_iff.mpr ⟨ha.some rfl, ha.digits⟩, rfl, ?_⟩
    intro hDotted d hd
    have hDigit := hs.digits nofun hDotted d hd
    have hDot := hs.dot rfl hDotted d hd
    simp only [isDigitOrDot, hDigit, hDot, Bool.or_false]
  · cases h

theorem admits_macroTail (h : Numeral.isNumeral digits = true) (dotted : Bool) :
    Shape.Admits ⟨false, .some, true⟩ ⟨none, digits, dotted⟩ :=
  Token.admits_unsigned (Numeral.isNumeral_iff.mp h).2 nofun
    (fun _ => (Numeral.isNumeral_iff.mp h).1) fun _ => rfl

theorem stops_macroTail (hRest : dotted = false → HeadNot isDigitOrDot rest) :
    Shape.Stops ⟨false, .some, true⟩ ⟨none, digits, dotted⟩ rest := by
  refine ⟨nofun, ?_, ?_⟩
  · intro _ hDotted d hd
    exact (Bool.or_eq_false_iff.mp (hRest hDotted d hd)).1
  · intro _ hDotted d hd
    exact (Bool.or_eq_false_iff.mp (hRest hDotted d hd)).2

theorem head_macro_append (h : Numeral.isNumeral digits = true)
    (hRest : dotted = false → HeadNot isDigitOrDot rest) :
    head 'l' (digits ++ dotText dotted ++ rest) = ⟨digits ++ dotText dotted, rest, true⟩ := by
  have hSplit : splitMacro? 'l' (digits ++ dotText dotted ++ rest) =
      some (digits ++ dotText dotted, rest) :=
    Shape.split?_text_append (admits_macroTail h dotted) (stops_macroTail hRest)
  simp only [head, hSplit]

theorem head_stretch_append (h : IsStretch (c :: tail)) (hRest : HeadNot isSolid rest) :
    head c (tail ++ rest) = ⟨tail, rest, false⟩ := by
  have hTail : ∀ d ∈ tail, isSolid d = true := fun d hd => h.solid d (List.mem_cons_of_mem _ hd)
  have hNone : splitMacro? c (tail ++ rest) = none := by
    by_cases hc : c = 'l'
    · subst hc
      rw [splitMacro?_eq_none_iff]
      cases tail with
      | nil =>
        intro d hd
        -- behind a lone `l` there is a blank or nothing
        have hBlank := hRest d hd
        rw [← Bool.not_eq_true]
        intro hDigit
        rw [isSolid_of_isInner (isInner_of_isDigit hDigit)] at hBlank
        cases hBlank
      | cons d tail => simpa using h.no_macro _ rfl
    · simp [splitMacro?, hc]
  simp only [head, hNone, Token.takeWhile_append_of_headNot hTail hRest,
    Token.dropWhile_append_of_headNot hTail hRest]

/-! ### Texts read as macros -/

theorem splitDot_append_dotText (text : List Char) :
    (Duration.splitDot text).1 ++ dotText (Duration.splitDot text).2 = text := by
  unfold Duration.splitDot
  split
  · next h => exact List.dropLast_append_getLast? _ h
  · exact List.append_nil text

/-- The texts that are read as length macros. -/
theorem isMacro_iff : IsMacro run ↔ ∃ length, Length.parseMacro? run = some length := by
  constructor
  · rintro ⟨h, dotted⟩
    exact ⟨_, Length.parseMacro?_append h dotted⟩
  · rintro ⟨length, h⟩
    unfold Length.parseMacro? at h
    split at h
    · next body =>
      obtain ⟨duration, hDuration, h⟩ := Option.bind_eq_some_iff.mp h
      obtain ⟨value, hValue, -⟩ := Option.bind_eq_some_iff.mp h
      simp only [Duration.parse?] at hDuration
      split at hDuration
      · next hDigits =>
        cases hDuration
        have hNe : (Duration.splitDot body).1 ≠ [] := by
          intro hEmpty
          simp [hEmpty] at hValue
        have hNumeral : Numeral.isNumeral (Duration.splitDot body).1 = true :=
          Numeral.isNumeral_iff.mpr ⟨hNe, List.all_eq_true.mp hDigits⟩
        rw [← splitDot_append_dotText body]
        exact ⟨hNumeral, _⟩
      · cases hDuration
    · cases h

theorem IsStretch.parseMacro?_eq_none (h : IsStretch run) : Length.parseMacro? run = none := by
  rw [Option.eq_none_iff_forall_ne_some]
  intro length hLength
  obtain ⟨hDigits, dotted⟩ := isMacro_iff.mpr ⟨length, hLength⟩
  obtain ⟨d, ds, rfl, hDigit, -⟩ := Numeral.exists_cons hDigits
  have hNot := h.no_macro _ rfl d rfl
  rw [hDigit] at hNot
  cases hNot

/-! ### Reading run by run -/

theorem IsFirst.exists_cons (h : IsFirst run rest) :
    ∃ c tail, run = c :: tail ∧ Text.isBlank c = false := by
  cases h with
  | lengthMacro h dotted => exact ⟨_, _, rfl, by decide⟩
  | stretch h =>
    obtain ⟨c, tail, rfl⟩ := List.exists_cons_of_ne_nil h.ne_nil
    exact ⟨c, tail, rfl, by simpa [isSolid] using h.solid c⟩

/-- A first run is a macro exactly if it is read as one, and the runs behind it are read on their
own. -/
theorem IsFirst.scanFrom_append (h : IsFirst run rest) (start : Nat) :
    scanFrom start (run ++ rest) = ⟨run, start, (Length.parseMacro? run).isSome⟩ ::
      scanFrom (start + Text.byteSize run) rest := by
  cases h with
  | lengthMacro h dotted hRest =>
    rw [Length.parseMacro?_append h, List.cons_append, scanFrom_cons (by decide),
      head_macro_append h hRest]
    rfl
  | stretch h hRest =>
    obtain ⟨c, tail, rfl⟩ := List.exists_cons_of_ne_nil h.ne_nil
    have hc : Text.isBlank c = false := by simpa [isSolid] using h.solid c (by simp)
    rw [h.parseMacro?_eq_none, List.cons_append, scanFrom_cons hc, head_stretch_append h hRest]
    rfl

@[simp] theorem texts_nil : texts [] = [] := by simp [texts, scan, scanFrom]

theorem texts_blank (h : Text.isBlank b = true) (text : List Char) :
    texts (b :: text) = texts text := by
  rw [texts, scan, scanFrom_blank h, texts_scanFrom]

theorem IsFirst.texts_append (h : IsFirst run rest) : texts (run ++ rest) = run :: texts rest := by
  rw [texts, scan, h.scanFrom_append, List.map_cons, texts_scanFrom]

theorem texts_stretch (h : IsStretch run) : texts run = [run] := by
  simpa using (IsFirst.stretch h (Token.headNot_nil _)).texts_append

/-- A text is empty, or it starts with a blank or with its first run. -/
theorem scan_induction {motive : List Char → Prop} (nil : motive [])
    (blank : ∀ b text, Text.isBlank b = true → motive text → motive (b :: text))
    (run : ∀ run rest, IsFirst run rest → motive rest → motive (run ++ rest)) (text : List Char) :
    motive text := by
  induction 0, text using scanFrom.induct with
  | case1 start => exact nil
  | case2 start c text hBlank ih => exact blank c text hBlank ih
  | case3 start c text hBlank ih =>
    rw [Bool.not_eq_true] at hBlank
    rw [← head_append c text, ← List.cons_append]
    refine run _ _ ?_ ih
    cases hSplit : splitMacro? c text with
    | some cut =>
      obtain ⟨tail, rest⟩ := cut
      obtain ⟨rfl, digits, dotted, hDigits, rfl, hRest⟩ := exists_of_splitMacro? hSplit
      simp only [head, hSplit]
      exact .lengthMacro hDigits dotted hRest
    | none =>
      simp only [head, hSplit]
      refine .stretch ⟨by simp, ?_, ?_⟩ (Token.headNot_dropWhile _ _)
      · intro d hd
        rcases List.mem_cons.mp hd with rfl | hd
        · simp [isSolid, hBlank]
        · exact List.mem_takeWhile_imp hd
      · intro tail hTail d hd
        obtain ⟨rfl, rfl⟩ := List.cons.inj hTail
        refine (splitMacro?_eq_none_iff text).mp hSplit d ?_
        cases text with
        | nil => cases hd
        | cons e text =>
          by_cases he : isSolid e
          · simpa [he] using hd
          · simp [he] at hd

/-! ### The kinds of run -/

theorem IsFirst.isMacro_or_isStretch (h : IsFirst run rest) : IsMacro run ∨ IsStretch run := by
  cases h with
  | lengthMacro h dotted => exact .inl ⟨h, dotted⟩
  | stretch h => exact .inr h

theorem isMacro_or_isStretch (h : run ∈ texts text) : IsMacro run ∨ IsStretch run := by
  induction text using scan_induction with
  | nil => simp at h
  | blank b text hBlank ih =>
    rw [texts_blank hBlank] at h
    exact ih h
  | run first rest hFirst ih =>
    rw [hFirst.texts_append, List.mem_cons] at h
    rcases h with rfl | h
    · exact hFirst.isMacro_or_isStretch
    · exact ih h

theorem IsMacro.solid (h : IsMacro run) : ∀ c ∈ run, isSolid c = true := by
  obtain ⟨hDigits, dotted⟩ := h
  intro c hc
  rcases List.mem_cons.mp hc with rfl | hc
  · decide
  · have hTail := isInner_of_mem_append (Numeral.isNumeral_iff.mp hDigits).2 dotted
    exact isSolid_of_isInner (hTail c hc)

end Run

end Drumline
