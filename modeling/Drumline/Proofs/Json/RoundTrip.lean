import Drumline.Json.Reader
import Drumline.Proofs.Json.Parts

/-! Reading printed documents.  Each value is read back where it is printed, at any depth and
whatever stands around it (`ReadsBack`).  The main statement is `parse_render`, that a document
whose numbers are integers is read back from its print. -/

namespace Drumline.Json

open Token (HeadNot headNot_cons)

variable {c : Char} {blanks text rest : List Char} {use : Use}

/-! ### Values -/

theorem reads_readValue_scalar {value : Json} (hBlanks : ∀ b ∈ blanks, isBlank b = true)
    (hc : isBlank c = false) (hArray : c ≠ '[') (hObject : c ≠ '\x7b')
    (h : ∀ h, Reads (readScalar use (⟨c, text, h⟩ : Next (blanks ++ c :: text))) value rest) :
    Reads (readValue use (blanks ++ c :: text)) value rest := by
  obtain ⟨hlt, hNext⟩ := exists_next? hBlanks hc text
  rw [readValue]
  simp only [hNext]
  rw [if_neg hArray, if_neg hObject]
  exact h hlt

theorem reads_readValue_num (i : Int) (hBlanks : ∀ b ∈ blanks, isBlank b = true)
    (hRest : HeadNot isNumberPart rest) :
    Reads (readValue use (blanks ++ (Numeral.ofInt i ++ rest))) (.num (Numeral.ofInt i)) rest := by
  obtain ⟨n, hNumber⟩ := reads_readNumber use i hRest
  obtain ⟨c, tail, hHead, hChar⟩ := exists_ofInt_cons i
  have hNe : ∀ d : Char, d.isDigit = false → d ≠ '-' → c ≠ d := by
    rintro d hDigit hSign rfl
    rcases hChar with h | h
    · rw [h] at hDigit
      cases hDigit
    · exact hSign h
  rw [hHead, List.cons_append] at hNumber ⊢
  refine reads_readValue_scalar hBlanks (isBlank_eq_false_of_number hChar)
    (hNe _ rfl (by decide)) (hNe _ rfl (by decide)) ?_
  intro hlt
  have hScalar : readScalar use (⟨c, tail ++ rest, hlt⟩ : Next (blanks ++ c :: (tail ++ rest))) =
      (readNumber use (c :: (tail ++ rest))).map fun r =>
        ⟨.num r.written, r.rest, Nat.le_trans r.le hlt⟩ := by
    have hNumeric : (c.isDigit || c == '-') = true := by
      rcases hChar with h | h <;> simp [h]
    unfold readScalar
    split
    · next h => exact absurd h (hNe _ rfl (by decide))
    · next h => exact absurd h (hNe _ rfl (by decide))
    · next h => exact absurd h (hNe _ rfl (by decide))
    · next h => exact absurd h (hNe _ rfl (by decide))
    · exact if_pos hNumeric
  rw [hScalar]
  refine hNumber.map (fun r _ hEnd => ?_) fun _ _ hEnd => hEnd
  simp only [Read.written, hEnd]
  rw [← List.cons_append, ← hHead]
  simp

/-- The documents whose numbers are integers. -/
inductive HasIntegers : Json → Prop
  | null : HasIntegers .null
  | bool (b : Bool) : HasIntegers (.bool b)
  | num (i : Int) : HasIntegers (.num (Numeral.ofInt i))
  | str (s : List Char) : HasIntegers (.str s)
  | arr {items : List Json} (h : ∀ item ∈ items, HasIntegers item) : HasIntegers (.arr items)
  | obj {fields : List (List Char × Json)} (h : ∀ field ∈ fields, HasIntegers field.2) :
    HasIntegers (.obj fields)

/-- The document is read back where it is printed. -/
def ReadsBack (use : Use) (document : Json) : Prop :=
  ∀ (depth : Nat) (blanks rest : List Char), (∀ b ∈ blanks, isBlank b = true) →
    HeadNot isNumberPart rest →
      Reads (readValue use (blanks ++ (renderAt depth document ++ rest))) document rest

theorem headNot_newline (depth : Nat) (text : List Char) :
    HeadNot isNumberPart (newline depth ++ text) :=
  headNot_cons.mpr rfl

theorem reads_word (letters rest : List Char) (value : Json)
    (hle : ∀ r : Read Unit (letters ++ rest), r.rest.length ≤ text.length) :
    Reads ((readWord letters (letters ++ rest)).map fun r =>
      (⟨value, r.rest, hle r⟩ : Read Json text)) value rest :=
  (reads_readWord letters rest).map (fun _ _ _ => rfl) fun _ _ hRest => hRest

theorem readsBack_null : ReadsBack use .null := by
  intro depth blanks rest hBlanks _
  refine reads_readValue_scalar hBlanks (by decide) (by decide) (by decide) fun _ => ?_
  exact reads_word ['u', 'l', 'l'] rest .null _

theorem readsBack_bool (b : Bool) : ReadsBack use (.bool b) := by
  intro depth blanks rest hBlanks _
  cases b with
  | true =>
    refine reads_readValue_scalar hBlanks (by decide) (by decide) (by decide) fun _ => ?_
    exact reads_word ['r', 'u', 'e'] rest (.bool true) _
  | false =>
    refine reads_readValue_scalar hBlanks (by decide) (by decide) (by decide) fun _ => ?_
    exact reads_word ['a', 'l', 's', 'e'] rest (.bool false) _

theorem readsBack_num (i : Int) : ReadsBack use (.num (Numeral.ofInt i)) := by
  intro depth blanks rest hBlanks hRest
  exact reads_readValue_num i hBlanks hRest

theorem readsBack_str (s : List Char) : ReadsBack use (.str s) := by
  intro depth blanks rest hBlanks _
  have hText : renderAt depth (.str s) ++ rest = '"' :: (s.flatMap escape ++ '"' :: rest) := by
    simp [renderAt, quote]
  rw [hText]
  refine reads_readValue_scalar hBlanks (by decide) (by decide) (by decide) fun _ => ?_
  exact (reads_readString use s rest).map (fun _ hValue _ => congrArg Json.str hValue)
    fun _ _ hRest => hRest

/-! ### Arrays -/

/-- The print of the items of an array, at least one, with its end and the text behind it. -/
def itemsText (depth outer : Nat) (item : Json) (items : List Json) (rest : List Char) :
    List Char :=
  renderAt depth item ++ (renderItems depth items ++ (newline outer ++ ']' :: rest))

theorem reads_readItems {item : Json} {items : List Json}
    (h : ∀ x ∈ item :: items, ReadsBack use x) (depth outer : Nat) (rest : List Char)
    (hBlanks : ∀ b ∈ blanks, isBlank b = true) :
    Reads (readItems use (blanks ++ itemsText depth outer item items rest)) (item :: items)
      rest := by
  induction items generalizing item blanks with
  | nil =>
    have hItem := h item List.mem_cons_self depth blanks (newline outer ++ ']' :: rest) hBlanks
      (headNot_newline outer _)
    obtain ⟨hlt, hMark⟩ := exists_next? (isBlank_of_mem_newline outer)
      (show isBlank ']' = false by decide) rest
    rw [itemsText, renderItems, List.nil_append, readItems]
    refine hItem.bind fun hle => ?_
    simp only [hMark]
    exact ⟨_, rfl⟩
  | cons next items ih =>
    have hItem := h item List.mem_cons_self depth blanks
      (',' :: (newline depth ++ itemsText depth outer next items rest)) hBlanks
      (headNot_cons.mpr rfl)
    have hItems := ih (fun x hx => h x (List.mem_cons_of_mem _ hx)) (isBlank_of_mem_newline depth)
    have hText : itemsText depth outer item (next :: items) rest = renderAt depth item ++
        ',' :: (newline depth ++ itemsText depth outer next items rest) := by
      simp [itemsText, renderItems]
    rw [hText, readItems]
    refine hItem.bind fun hle => ?_
    simp only [next?_cons (show isBlank ',' = false by decide), if_true]
    exact hItems.map (fun _ hValue _ => congrArg (item :: ·) hValue) fun _ _ hRest => hRest

theorem HasIntegers.exists_renderAt_cons {document : Json} (h : HasIntegers document)
    (depth : Nat) :
    ∃ c tail, renderAt depth document = c :: tail ∧ isBlank c = false ∧ c ≠ ']' := by
  cases h with
  | null => exact ⟨_, _, rfl, by decide, by decide⟩
  | bool b => cases b <;> exact ⟨_, _, rfl, by decide, by decide⟩
  | num i =>
    obtain ⟨c, tail, hHead, hChar⟩ := exists_ofInt_cons i
    have hNe : c ≠ ']' := by
      rintro rfl
      exact absurd hChar (by decide)
    refine ⟨c, tail, by rw [renderAt, hHead], isBlank_eq_false_of_number hChar, hNe⟩
  | str s => exact ⟨_, _, rfl, by decide, by decide⟩
  | @arr items => cases items <;> exact ⟨_, _, rfl, by decide, by decide⟩
  | @obj fields => cases fields <;> exact ⟨_, _, rfl, by decide, by decide⟩

theorem HasIntegers.exists_next?_newline {document : Json} (h : HasIntegers document) (depth : Nat)
    (text : List Char) : ∃ c tail h,
      next? (newline depth ++ (renderAt depth document ++ text)) = some ⟨c, tail, h⟩ ∧ c ≠ ']' := by
  obtain ⟨c, tail, hHead, hBlank, hNe⟩ := h.exists_renderAt_cons depth
  obtain ⟨hlt, hNext⟩ := exists_next? (isBlank_of_mem_newline depth) hBlank (tail ++ text)
  rw [hHead, List.cons_append]
  exact ⟨c, _, hlt, hNext, hNe⟩

theorem readsBack_arr {items : List Json} (h : ∀ x ∈ items, ReadsBack use x)
    (hIntegers : ∀ x ∈ items, HasIntegers x) : ReadsBack use (.arr items) := by
  intro depth blanks rest hBlanks _
  cases items with
  | nil =>
    have hText : renderAt depth (.arr []) ++ rest = '[' :: ']' :: rest := by simp [renderAt]
    obtain ⟨hlt, hOpen⟩ := exists_next? hBlanks (show isBlank '[' = false by decide) (']' :: rest)
    rw [hText, readValue]
    simp only [hOpen, if_true, next?_cons (show isBlank ']' = false by decide)]
    exact ⟨_, rfl⟩
  | cons item items =>
    have hItems := reads_readItems h (depth + 1) depth rest (isBlank_of_mem_newline (depth + 1))
    have hText : renderAt depth (.arr (item :: items)) ++ rest =
        '[' :: (newline (depth + 1) ++ itemsText (depth + 1) depth item items rest) := by
      simp [renderAt, itemsText]
    obtain ⟨hlt, hOpen⟩ := exists_next? hBlanks (show isBlank '[' = false by decide)
      (newline (depth + 1) ++ itemsText (depth + 1) depth item items rest)
    obtain ⟨c, tail, hlt', hFirst, hNe⟩ :=
      (hIntegers item List.mem_cons_self).exists_next?_newline (depth + 1)
        (renderItems (depth + 1) items ++ (newline depth ++ ']' :: rest))
    change next? (newline (depth + 1) ++ itemsText (depth + 1) depth item items rest) = _ at hFirst
    rw [hText, readValue]
    simp only [hOpen, if_true, hFirst, if_neg hNe]
    exact hItems.map (fun _ hValue _ => congrArg Json.arr hValue) fun _ _ hRest => hRest

/-! ### Objects -/

theorem exists_next?_quote (hBlanks : ∀ b ∈ blanks, isBlank b = true) (key text : List Char) :
    ∃ tail h, next? (blanks ++ (quote key ++ text)) = some ⟨'"', tail, h⟩ :=
  ⟨_, exists_next? hBlanks (by decide) _⟩

theorem reads_readKey (key rest : List Char) (hBlanks : ∀ b ∈ blanks, isBlank b = true) :
    Reads (readKey use (blanks ++ (quote key ++ rest))) key rest := by
  have hText : quote key ++ rest = '"' :: (key.flatMap escape ++ '"' :: rest) := by simp [quote]
  obtain ⟨hlt, hNext⟩ := exists_next? hBlanks (show isBlank '"' = false by decide)
    (key.flatMap escape ++ '"' :: rest)
  rw [hText, readKey]
  simp only [hNext]
  exact (reads_readString use key rest).widen _

theorem reads_readColon (rest : List Char) : Reads (readColon (':' :: rest)) () rest := ⟨_, rfl⟩

/-- The print of the fields of an object, at least one, with its end and the text behind it. -/
def fieldsText (depth outer : Nat) (field : List Char × Json) (fields : List (List Char × Json))
    (rest : List Char) : List Char :=
  quote field.1 ++ (':' :: ' ' :: (renderAt depth field.2 ++
    (renderFields depth fields ++ (newline outer ++ '\x7d' :: rest))))

theorem reads_readFields {field : List Char × Json} {fields : List (List Char × Json)}
    (h : ∀ x ∈ field :: fields, ReadsBack use x.2) (depth outer : Nat) (rest : List Char)
    (hBlanks : ∀ b ∈ blanks, isBlank b = true) :
    Reads (readFields use (blanks ++ fieldsText depth outer field fields rest)) (field :: fields)
      rest := by
  have hSpace : ∀ b ∈ [' '], isBlank b = true := List.forall_mem_singleton.mpr rfl
  induction fields generalizing field blanks with
  | nil =>
    have hValue := h field List.mem_cons_self depth [' '] (newline outer ++ '\x7d' :: rest) hSpace
      (headNot_newline outer _)
    obtain ⟨hlt, hMark⟩ := exists_next? (isBlank_of_mem_newline outer)
      (show isBlank '\x7d' = false by decide) rest
    rw [fieldsText, renderFields, List.nil_append, readFields]
    refine (reads_readKey field.1 _ hBlanks).bind fun _ => ?_
    refine (reads_readColon _).bind fun _ => hValue.bind fun _ => ?_
    simp only [hMark]
    exact ⟨_, rfl⟩
  | cons next fields ih =>
    have hValue := h field List.mem_cons_self depth [' ']
      (',' :: (newline depth ++ fieldsText depth outer next fields rest)) hSpace
      (headNot_cons.mpr rfl)
    have hFields := ih (fun x hx => h x (List.mem_cons_of_mem _ hx)) (isBlank_of_mem_newline depth)
    have hText : fieldsText depth outer field (next :: fields) rest = quote field.1 ++
        (':' :: ' ' :: (renderAt depth field.2 ++
          ',' :: (newline depth ++ fieldsText depth outer next fields rest))) := by
      simp [fieldsText, renderFields]
    rw [hText, readFields]
    refine (reads_readKey field.1 _ hBlanks).bind fun _ => ?_
    refine (reads_readColon _).bind fun _ => hValue.bind fun _ => ?_
    simp only [next?_cons (show isBlank ',' = false by decide), if_true]
    exact hFields.map (fun _ hValue _ => congrArg (field :: ·) hValue) fun _ _ hRest => hRest

theorem readsBack_obj {fields : List (List Char × Json)} (h : ∀ x ∈ fields, ReadsBack use x.2) :
    ReadsBack use (.obj fields) := by
  intro depth blanks rest hBlanks _
  cases fields with
  | nil =>
    have hText : renderAt depth (.obj []) ++ rest = '\x7b' :: '\x7d' :: rest := by simp [renderAt]
    obtain ⟨hlt, hOpen⟩ := exists_next? hBlanks (show isBlank '\x7b' = false by decide)
      ('\x7d' :: rest)
    rw [hText, readValue]
    simp only [hOpen, if_true, next?_cons (show isBlank '\x7d' = false by decide)]
    exact ⟨_, rfl⟩
  | cons field fields =>
    have hFields := reads_readFields h (depth + 1) depth rest (isBlank_of_mem_newline (depth + 1))
    have hText : renderAt depth (.obj (field :: fields)) ++ rest =
        '\x7b' :: (newline (depth + 1) ++ fieldsText (depth + 1) depth field fields rest) := by
      simp [renderAt, fieldsText]
    obtain ⟨hlt, hOpen⟩ := exists_next? hBlanks (show isBlank '\x7b' = false by decide)
      (newline (depth + 1) ++ fieldsText (depth + 1) depth field fields rest)
    obtain ⟨tail, hlt', hFirst⟩ := exists_next?_quote (isBlank_of_mem_newline (depth + 1)) field.1
      (':' :: ' ' :: (renderAt (depth + 1) field.2 ++
        (renderFields (depth + 1) fields ++ (newline depth ++ '\x7d' :: rest))))
    change next? (newline (depth + 1) ++ fieldsText (depth + 1) depth field fields rest) = _
      at hFirst
    rw [hText, readValue]
    simp only [hOpen]
    rw [if_neg (by decide)]
    simp only [if_true, hFirst]
    exact hFields.map (fun _ hValue _ => congrArg Json.obj hValue) fun _ _ hRest => hRest

/-! ### Documents -/

theorem HasIntegers.readsBack (use : Use) {document : Json} (h : HasIntegers document) :
    ReadsBack use document := by
  induction h with
  | null => exact readsBack_null
  | bool b => exact readsBack_bool b
  | num i => exact readsBack_num i
  | str s => exact readsBack_str s
  | arr h ih => exact readsBack_arr ih h
  | obj h ih => exact readsBack_obj ih

/-- A document whose numbers are integers is read back from its print. -/
theorem parse_render {document : Json} (h : HasIntegers document) :
    parse document.render = .ok document := by
  have hRead := HasIntegers.readsBack .kept h 0 [] [] nofun (Token.headNot_nil _)
  rw [List.nil_append, List.append_nil] at hRead
  obtain ⟨hle, hRead⟩ := hRead
  rw [parse, render, hRead]
  rfl

end Drumline.Json
