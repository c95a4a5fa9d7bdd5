import Drumline.Lexeme
import Drumline.Proofs.Token.Spelling

/-! Where the lexemes of two texts are the lexemes of the one text they make together.  `contents`
gives the lexemes of a text without their places.  The main statements are `scanFrom_append_cons`,
that a character which stands in no token but as its first one, or in none at all, always starts
anew, `contents_written_append`, that the text of a token is a lexeme where its tail stops, and
`exists_contents_written_append`, that it is no lexeme where its tail goes on. -/

namespace Drumline.Lexeme

open Token

variable {c : Char} {shape : Shape} {t : Tail} {token : Token} {text tail rest : List Char}

/-! ### The first token -/

/-- A first character with the tail that its shape cuts off spells a token. -/
theorem exists_written_of_split?
    (h : (Shape.ofHead? c).bind (·.split? text) = some (tail, rest)) :
    ∃ token, Written (c :: tail) token := by
  obtain ⟨shape, hHead, hSplit⟩ := Option.bind_eq_some_iff.mp h
  obtain ⟨t, ha, -, rfl⟩ := Shape.exists_tail hSplit
  exact exists_written hHead ha

theorem head_stray_or_written (c : Char) (text : List Char) :
    head c text = ⟨.stray, [], text⟩ ∨ Written (c :: (head c text).tail) (head c text).token := by
  cases h : (Shape.ofHead? c).bind (·.split? text) with
  | none => exact .inl (by simp [head, h])
  | some cut =>
    obtain ⟨tail, rest⟩ := cut
    obtain ⟨token, hToken⟩ := exists_written_of_split? h
    exact .inr (by simpa [head, h, hToken.read?] using hToken)

theorem head_text_append (hHead : Shape.ofHead? c = some shape) (ha : shape.Admits t)
    (hs : shape.Stops t rest) (hToken : Written (c :: t.text) token) :
    head c (t.text ++ rest) = ⟨token, t.text, rest⟩ := by
  simp [head, hHead, Shape.split?_text_append ha hs, hToken.read?]

theorem head_text_append_ne (hHead : Shape.ofHead? c = some shape) (ha : shape.Admits t)
    (hs : ¬shape.Stops t rest) : (head c (t.text ++ rest)).tail ≠ t.text ∧
      Written (c :: (head c (t.text ++ rest)).tail) (head c (t.text ++ rest)).token := by
  obtain ⟨tail, rest', hSplit, hNe⟩ := Shape.exists_split?_ne ha hs
  obtain ⟨t', ha', -, rfl⟩ := Shape.exists_tail hSplit
  obtain ⟨token, hToken⟩ := exists_written hHead ha'
  have h : head c (t.text ++ rest) = ⟨token, t'.text, rest'⟩ := by
    simp [head, hHead, hSplit, hToken.read?]
  rw [h]
  exact ⟨hNe, hToken⟩

theorem head_append_cons (hc : isInner c = false) (d : Char) (text after : List Char) :
    head d (text ++ c :: after) =
      { head d text with rest := (head d text).rest ++ c :: after } := by
  unfold head
  cases Shape.ofHead? d with
  | none => rfl
  | some shape =>
    simp only [Option.bind_some, Shape.split?_append_cons hc]
    cases shape.split? text <;> rfl

theorem isGap_eq_false_of_ofHead? (h : Shape.ofHead? c = some shape) :
    Text.isGap c = false := by
  rw [← Bool.not_eq_true]
  intro hGap
  simp only [Text.isGap, Bool.or_eq_true, beq_iff_eq] at hGap
  rcases hGap with ((rfl | rfl) | rfl) | rfl <;> cases h

/-! ### Scanning -/

theorem scanFrom_gap (h : Text.isGap c = true) (start : Nat) (text : List Char) :
    scanFrom start (c :: text) = scanFrom (start + c.utf8Size) text := by
  rw [scanFrom, if_pos h]

theorem scanFrom_cons (h : Text.isGap c = false) (start : Nat) (text : List Char) :
    scanFrom start (c :: text) =
      ⟨(head c text).token, c :: (head c text).tail,
        ⟨start, start + Text.byteSize (c :: (head c text).tail)⟩⟩ ::
        scanFrom (start + Text.byteSize (c :: (head c text).tail)) (head c text).rest := by
  rw [scanFrom, if_neg (by simp [h])]

/-- A character that stands in no tail starts anew, whatever is before it. -/
theorem scanFrom_append_cons (hc : isInner c = false) (start : Nat) (before after : List Char) :
    scanFrom start (before ++ c :: after) =
      scanFrom start before ++ scanFrom (start + Text.byteSize before) (c :: after) := by
  induction start, before using scanFrom.induct with
  | case1 start => simp [scanFrom]
  | case2 start d text hGap ih =>
    rw [List.cons_append, scanFrom_gap hGap, scanFrom_gap hGap, ih, Text.byteSize_cons,
      Nat.add_assoc]
  | case3 start d text hGap stop ih =>
    rw [Bool.not_eq_true] at hGap
    have hSize : Text.byteSize (d :: text) =
        Text.byteSize (d :: (head d text).tail) + Text.byteSize (head d text).rest := by
      rw [← Text.byteSize_append, List.cons_append, head_append]
    rw [List.cons_append, scanFrom_cons hGap, scanFrom_cons hGap, head_append_cons hc, hSize]
    simp only [List.cons_append, ih, stop, Nat.add_assoc]

theorem stray_or_written_of_mem_scanFrom {start : Nat} {x : Lexeme}
    (h : x ∈ scanFrom start text) : x.token = .stray ∨ Written x.raw x.token := by
  induction start, text using scanFrom.induct with
  | case1 start => simp [scanFrom] at h
  | case2 start d text hGap ih =>
    rw [scanFrom_gap hGap] at h
    exact ih h
  | case3 start d text hGap stop ih =>
    rw [scanFrom_cons (by simpa using hGap), List.mem_cons] at h
    rcases h with rfl | h
    · rcases head_stray_or_written d text with hStray | hWritten
      · exact .inl (by simp [hStray])
      · exact .inr hWritten
    · exact ih h

/-- The text of every lexeme of a voice spells its token. -/
theorem written_of_mem_tokenize {voice : List Char} {x : Lexeme} (h : x ∈ tokenize voice) :
    Written x.raw x.token := by
  obtain ⟨hMem, hNot⟩ := List.mem_filter.mp h
  exact (stray_or_written_of_mem_scanFrom hMem).resolve_left (by simpa [isStray] using hNot)

/-! ### Contents -/

def content (x : Lexeme) : Token × List Char := (x.token, x.raw)

/-- The lexemes of a text without their places. -/
def contents (text : List Char) : List (Token × List Char) := (tokenize text).map content

theorem content_scanFrom (start start' : Nat) (text : List Char) :
    (scanFrom start text).map content = (scanFrom start' text).map content := by
  induction start, text using scanFrom.induct generalizing start' with
  | case1 start => simp [scanFrom]
  | case2 start d text hGap ih =>
    rw [scanFrom_gap hGap, scanFrom_gap hGap]
    exact ih _
  | case3 start d text hGap stop ih =>
    rw [Bool.not_eq_true] at hGap
    rw [scanFrom_cons hGap, scanFrom_cons hGap, List.map_cons, List.map_cons, ih]
    rfl

theorem contents_eq (start : Nat) (text : List Char) :
    contents text = ((scanFrom start text).map content).filter (·.1 != .stray) := by
  rw [content_scanFrom start 0, List.filter_map]
  rfl

@[simp] theorem contents_nil : contents [] = [] := by simp [contents, tokenize, scan, scanFrom]

theorem contents_gap (h : Text.isGap c = true) (text : List Char) :
    contents (c :: text) = contents text := by
  rw [contents_eq 0, scanFrom_gap h, ← contents_eq]

theorem contents_append_cons (hc : isInner c = false) (before after : List Char) :
    contents (before ++ c :: after) = contents before ++ contents (c :: after) := by
  rw [contents_eq 0, scanFrom_append_cons hc, List.map_append, List.filter_append,
    ← contents_eq, ← contents_eq]

theorem contents_cons (h : Text.isGap c = false) (text : List Char) :
    contents (c :: text) =
      [((head c text).token, c :: (head c text).tail)].filter (·.1 != .stray) ++
        contents (head c text).rest := by
  rw [contents_eq 0, scanFrom_cons h, List.map_cons, ← List.singleton_append, List.filter_append,
    ← contents_eq]
  rfl

theorem Written.ne_stray (h : Written text token) : token ≠ .stray := by
  cases h <;> simp

theorem contents_cons_of_written (h : Text.isGap c = false)
    (hWritten : Written (c :: (head c text).tail) (head c text).token) :
    contents (c :: text) =
      ((head c text).token, c :: (head c text).tail) :: contents (head c text).rest := by
  simp [contents_cons h, Written.ne_stray hWritten]

/-- The text is a token that does not go on into the text behind it. -/
def Ends (text rest : List Char) : Prop :=
  ∀ c shape t, text = c :: Tail.text t → Shape.ofHead? c = some shape → shape.Admits t →
    shape.Stops t rest

theorem ends_iff (hHead : Shape.ofHead? c = some shape) (ha : shape.Admits t) :
    Ends (c :: t.text) rest ↔ shape.Stops t rest := by
  constructor
  · intro h
    exact h c shape t rfl hHead ha
  · intro hs c' shape' t' hText hHead' ha'
    obtain ⟨rfl, hTail⟩ := List.cons.inj hText
    obtain rfl : shape = shape' := Option.some.inj (hHead.symm.trans hHead')
    exact hs.congr ha ha' hTail

/-- A token goes on into a character exactly if the two together are a token. -/
theorem ends_cons_iff (h : Written text token) :
    Ends text (c :: rest) ↔ ∀ token', ¬Written (text ++ [c]) token' := by
  obtain ⟨c', shape, t, rfl, hHead, ha⟩ := h.exists_tail
  rw [ends_iff hHead ha, Shape.stops_cons_iff ha]
  constructor
  · intro hNot token' hWritten
    obtain ⟨d, shape', t', hText, hHead', ha'⟩ := hWritten.exists_tail
    obtain ⟨rfl, hTail⟩ := List.cons.inj hText
    obtain rfl : shape = shape' := Option.some.inj (hHead.symm.trans hHead')
    exact hNot t' ha' hTail.symm
  · intro hNot t' ha' hText
    obtain ⟨token', hWritten⟩ := exists_written hHead ha'
    rw [hText] at hWritten
    exact hNot token' hWritten

theorem exists_tail_of_head (h : Written (c :: (head c text).tail) (head c text).token) :
    ∃ shape t, Shape.ofHead? c = some shape ∧ shape.Admits t ∧
      shape.Stops t (head c text).rest ∧ t.text = (head c text).tail := by
  cases hSplit : (Shape.ofHead? c).bind (·.split? text) with
  | none =>
    have hStray : (head c text).token = .stray := by simp [head, hSplit]
    exact absurd hStray (Written.ne_stray h)
  | some cut =>
    obtain ⟨tail, rest⟩ := cut
    obtain ⟨shape, hHead, hCut⟩ := Option.bind_eq_some_iff.mp hSplit
    obtain ⟨t, ha, hs, rfl⟩ := Shape.exists_tail hCut
    simp only [head, hSplit]
    exact ⟨shape, t, hHead, ha, hs, rfl⟩

/-- A token that is read ends where the text behind it starts. -/
theorem ends_head (h : Written (c :: (head c text).tail) (head c text).token) :
    Ends (c :: (head c text).tail) (head c text).rest := by
  obtain ⟨shape, t, hHead, ha, hs, hText⟩ := exists_tail_of_head h
  rw [← hText]
  exact (ends_iff hHead ha).mpr hs

theorem contents_written_append (h : Written text token) (hEnds : Ends text rest) :
    contents (text ++ rest) = (token, text) :: contents rest := by
  obtain ⟨c, shape, t, rfl, hHead, ha⟩ := h.exists_tail
  have hFirst := head_text_append hHead ha (hEnds c shape t rfl hHead ha) h
  rw [List.cons_append, contents_cons_of_written (isGap_eq_false_of_ofHead? hHead)] <;>
    simp [hFirst, h]

theorem contents_written (h : Written text token) : contents text = [(token, text)] := by
  have hEnds : Ends text [] := fun _ _ _ _ _ _ => .of_headNot (headNot_nil _)
  simpa using contents_written_append h hEnds

theorem exists_contents_written_append (h : Written text token) (hEnds : ¬Ends text rest) :
    ∃ token' text' more, contents (text ++ rest) = (token', text') :: more ∧ text' ≠ text ∧
      Written text' token' ∧ text'.head? = text.head? := by
  obtain ⟨c, shape, t, rfl, hHead, ha⟩ := h.exists_tail
  rw [ends_iff hHead ha] at hEnds
  obtain ⟨hNe, hWritten⟩ := head_text_append_ne hHead ha hEnds
  refine ⟨_, _, _, contents_cons_of_written (isGap_eq_false_of_ofHead? hHead) hWritten, ?_,
    hWritten, rfl⟩
  simpa using hNe

/-- A token is read first, and then the text behind it, exactly if the token ends there. -/
theorem raws_contents_written_append_iff (h : Written text token) {raws : List (List Char)} :
    (contents (text ++ rest)).map (·.2) = text :: raws ↔
      Ends text rest ∧ (contents rest).map (·.2) = raws := by
  by_cases hEnds : Ends text rest
  · simp [contents_written_append h hEnds, hEnds]
  · obtain ⟨token', text', more, hContents, hNe, -⟩ := exists_contents_written_append h hEnds
    simp [hContents, hEnds, hNe]

/-- Words with spaces between them are read one by one. -/
theorem contents_intercalate (words : List (List Char)) :
    contents (List.intercalate [' '] words) = words.flatMap contents := by
  induction words with
  | nil => simp
  | cons word words ih =>
    cases words with
    | nil => simp
    | cons next words =>
      rw [List.intercalate_cons_cons, List.append_assoc, List.singleton_append,
        contents_append_cons (by decide), contents_gap (by decide), ih]
      rfl

/-- Words that start anew are read one by one without spaces too. -/
theorem contents_flatten {words : List (List Char)}
    (h : ∀ word ∈ words, ∃ c tail, word = c :: tail ∧ isInner c = false) :
    contents words.flatten = words.flatMap contents := by
  induction words with
  | nil => simp
  | cons word words ih =>
    have hWords : ∀ word ∈ words, ∃ c tail, word = c :: tail ∧ isInner c = false :=
      fun w hw => h w (List.mem_cons_of_mem _ hw)
    rw [List.flatten_cons, List.flatMap_cons, ← ih hWords]
    cases words with
    | nil => simp
    | cons next words =>
      obtain ⟨c, tail, rfl, hc⟩ := hWords next (by simp)
      rw [List.flatten_cons, List.cons_append, contents_append_cons hc]

end Drumline.Lexeme
