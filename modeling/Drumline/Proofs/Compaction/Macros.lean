import Drumline.Proofs.Compaction.Runs

/-! Length macros, read in three ways: as a whole text, as a lexeme and as a run.  A run is a macro
exactly if its text is read as one (`asMacro_eq`), and a lexeme is one exactly if its text is.  The
main statement is `parseMacro?_recognisers`, that the three read the same length, and that a length
which is written out reads back. -/

namespace Drumline

open Token (Written HeadNot headNot_cons)

variable {text run rest before after : List Char} {length : Length} {start : Nat}

theorem Token.written_of_parseMacro? (h : Length.parseMacro? text = some length) :
    Written text (.lengthMacro length) := by
  obtain ⟨hDigits, dotted⟩ := Run.isMacro_iff.mpr ⟨length, h⟩
  have hWritten := Written.lengthMacro hDigits dotted
  have hLength : Length.parseMacro? _ = some _ := hWritten.parseMacro?_eq
  rw [h] at hLength
  cases hLength
  exact hWritten

/-! ### Lexemes -/

/-- A text that is read as a macro is the one lexeme of itself. -/
theorem Lexeme.parseMacro?_eq_some_iff : Length.parseMacro? text = some length ↔
    ∃ x, tokenize text = [x] ∧ x.token = .lengthMacro length ∧ x.raw = text := by
  constructor
  · intro h
    have hContents : contents text = [(.lengthMacro length, text)] :=
      contents_written (Token.written_of_parseMacro? h)
    obtain ⟨x, hTokens, hx⟩ := List.map_eq_singleton_iff.mp hContents
    exact ⟨x, hTokens, congrArg Prod.fst hx, congrArg Prod.snd hx⟩
  · rintro ⟨x, hTokens, hToken, rfl⟩
    have hWritten : Written x.raw x.token := written_of_mem_tokenize (by rw [hTokens]; simp)
    rw [hWritten.parseMacro?_eq, hToken]
    rfl

/-! ### Runs -/

namespace Run

/-- The macros among the runs are those that are read as macros. -/
theorem asMacro_eq {run : Run} (h : run ∈ scanFrom start text) :
    run.asMacro = run.length?.isSome := by
  induction text using scan_induction generalizing start with
  | nil => simp [scanFrom] at h
  | blank b text hBlank ih =>
    rw [scanFrom_blank hBlank] at h
    exact ih h
  | run first rest hFirst ih =>
    rw [hFirst.scanFrom_append, List.mem_cons] at h
    rcases h with rfl | h
    · rfl
    · exact ih h

theorem scanFrom_blanks_append (h : ∀ c ∈ before, Text.isBlank c = true) (start : Nat)
    (rest : List Char) :
    scanFrom start (before ++ rest) = scanFrom (start + Text.byteSize before) rest := by
  induction before generalizing start with
  | nil => rfl
  | cons b before ih =>
    rw [List.forall_mem_cons] at h
    rw [List.cons_append, scanFrom_blank h.1, ih h.2, Text.byteSize_cons, Nat.add_assoc]

theorem scanFrom_blanks (h : ∀ c ∈ text, Text.isBlank c = true) (start : Nat) :
    scanFrom start text = [] := by
  have hText := scanFrom_blanks_append h start []
  rwa [List.append_nil, scanFrom] at hText

/-- Only blanks have no runs. -/
theorem isBlank_of_scanFrom_eq_nil (h : scanFrom start text = []) :
    ∀ c ∈ text, Text.isBlank c = true := by
  induction text using scan_induction generalizing start with
  | nil => simp
  | blank b text hBlank ih =>
    rw [scanFrom_blank hBlank] at h
    exact List.forall_mem_cons.mpr ⟨hBlank, ih h⟩
  | run first rest hFirst ih =>
    rw [hFirst.scanFrom_append] at h
    cases h

/-- A text of one run is this run with blanks around it. -/
theorem exists_of_scanFrom_eq_singleton {run : Run} (h : scanFrom start text = [run]) :
    ∃ before after, text = before ++ (run.text ++ after) ∧
      ∀ c ∈ before ++ after, Text.isBlank c = true := by
  induction text using scan_induction generalizing start with
  | nil => simp [scanFrom] at h
  | blank b text hBlank ih =>
    rw [scanFrom_blank hBlank] at h
    obtain ⟨before, after, rfl, hBlanks⟩ := ih h
    exact ⟨b :: before, after, rfl, List.forall_mem_cons.mpr ⟨hBlank, hBlanks⟩⟩
  | run first rest hFirst ih =>
    rw [hFirst.scanFrom_append] at h
    obtain ⟨rfl, hRest⟩ := List.cons.inj h
    exact ⟨[], rest, rfl, isBlank_of_scanFrom_eq_nil hRest⟩

theorem scanFrom_macro_blanks (h : Length.parseMacro? run = some length)
    (hAfter : ∀ c ∈ after, Text.isBlank c = true) (start : Nat) :
    scanFrom start (run ++ after) = [⟨run, start, true⟩] := by
  have hRest : HeadNot isDigitOrDot after := fun c hc =>
    isDigitOrDot_eq_false (isInner_eq_false_of_isBlank (hAfter c (List.mem_of_mem_head? hc)))
  have hFirst : IsFirst run after := by
    obtain ⟨hDigits, dotted⟩ := isMacro_iff.mpr ⟨length, h⟩
    exact .lengthMacro hDigits dotted fun _ => hRest
  rw [hFirst.scanFrom_append, scanFrom_blanks hAfter, h]
  rfl

/-- The one run of a text is a macro exactly if the text is a macro with blanks around it. -/
theorem exists_macro_of_blanks_iff :
    (∃ run, scan text = [run] ∧ run.asMacro = true ∧ run.length? = some length) ↔
      ∃ before word after, text = before ++ (word ++ after) ∧
        (∀ c ∈ before ++ after, Text.isBlank c = true) ∧
          Length.parseMacro? word = some length := by
  constructor
  · rintro ⟨run, hScan, -, hLength⟩
    obtain ⟨before, after, hText, hBlanks⟩ := exists_of_scanFrom_eq_singleton hScan
    exact ⟨before, run.text, after, hText, hBlanks, hLength⟩
  · rintro ⟨before, word, after, rfl, hBlanks, hLength⟩
    rw [List.forall_mem_append] at hBlanks
    rw [scan, scanFrom_blanks_append hBlanks.1, scanFrom_macro_blanks hLength hBlanks.2]
    exact ⟨_, rfl, rfl, hLength⟩

theorem parseMacro?_eq_some_iff : Length.parseMacro? text = some length ↔
    ∃ run, scan text = [run] ∧ run.text = text ∧ run.asMacro = true ∧
      run.length? = some length := by
  constructor
  · intro h
    have hScan : scanFrom 0 (text ++ []) = [⟨text, 0, true⟩] :=
      scanFrom_macro_blanks h (by simp) 0
    rw [List.append_nil] at hScan
    exact ⟨_, hScan, rfl, rfl, h⟩
  · rintro ⟨run, -, rfl, -, h⟩
    exact h

end Run

/-- A text is read as a length macro exactly if it is the one lexeme of itself, a macro of this
length, and exactly if it is the one run of itself, a macro of this length.  A text whose one run is
such a macro may have blanks around it.  The runs of a text that are macros are those that are read
as macros, and a length that is written out reads back. -/
theorem parseMacro?_recognisers (text : List Char) (length : Length) :
    (Length.parseMacro? text = some length ↔
      ∃ x, Lexeme.tokenize text = [x] ∧ x.token = .lengthMacro length ∧ x.raw = text) ∧
    (Length.parseMacro? text = some length ↔
      ∃ run, Run.scan text = [run] ∧ run.text = text ∧ run.asMacro = true ∧
        run.length? = some length) ∧
    ((∃ run, Run.scan text = [run] ∧ run.asMacro = true ∧ run.length? = some length) ↔
      ∃ before word after, text = before ++ (word ++ after) ∧
        (∀ c ∈ before ++ after, Text.isBlank c = true) ∧
          Length.parseMacro? word = some length) ∧
    (∀ run ∈ Run.scan text, run.length?.isSome = true ↔ run.asMacro = true) ∧
    Length.parseMacro? length.render = some length := by
  refine ⟨Lexeme.parseMacro?_eq_some_iff, Run.parseMacro?_eq_some_iff,
    Run.exists_macro_of_blanks_iff, ?_, length.written_render.parseMacro?_eq⟩
  intro run hRun
  rw [Run.asMacro_eq hRun]

/-- The one run of a text may be a macro though the text is none. -/
theorem not_forall_parseMacro?_iff_scan : ¬∀ (text : List Char) (length : Length),
    Length.parseMacro? text = some length ↔
      ∃ run, Run.scan text = [run] ∧ run.asMacro = true ∧ run.length? = some length := by
  intro h
  have hRun : ∃ run, Run.scan " l4".toList = [run] ∧ run.asMacro = true ∧
      run.length? = some ⟨4, false⟩ :=
    ⟨⟨"l4".toList, 1, true⟩, by decide +kernel, rfl, by decide +kernel⟩
  exact absurd ((h _ _).mpr hRun) (by decide +kernel)

end Drumline
