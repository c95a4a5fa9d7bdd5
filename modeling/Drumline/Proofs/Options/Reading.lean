import Drumline.Proofs.Lexeme.Tiling
import Drumline.Proofs.Options.Deletion

/-! The lexemes of a source without its commands.  A command that is deleted takes its own lexeme
away; the token before it and the text behind it then stand together, and the token may take a dot
or a sign that was not its own (`Joins`).  The main statement is `raws_tokenize_preprocess_iff`,
that all other lexemes stay exactly if no token does. -/

namespace Drumline

open Token (Written Shape HeadNot headNot_nil headNot_cons isInner)
open Lexeme (contents Ends head_longest head_stray_or_written)
open Text (StandsAt)

variable {p : Char → Bool} {c d : Char} {text rest before source : List Char} {token : Token}
  {start : Nat} {o : Options}

/-! ### Strays -/

theorem Token.Shape.sign_eq_false {shape : Shape} (h : ofHead? c = some shape)
    (hDigits : shape.digits = .some) : shape.sign = false := by
  unfold ofHead? at h
  split at h
  · cases h
    cases hDigits
  split at h
  · cases h
    rfl
  split at h
  · cases h
    rfl
  split at h
  · cases h
    cases hDigits
  split at h
  · cases h
    cases hDigits
  · cases h

namespace Lexeme

theorem token_ne_stray {part : List Char} (h : Written part token) (hPart : part <+: c :: text) :
    (head c text).token ≠ .stray :=
  Written.ne_stray (head_longest h hPart).1

/-- A stray stays one in front of a text that starts with no digit either. -/
theorem head_stray (hStray : (head c text).token = .stray)
    (h : HeadNot Char.isDigit text → HeadNot Char.isDigit rest) :
    head c rest = ⟨.stray, [], rest⟩ := by
  apply (head_stray_or_written c rest).resolve_right
  intro hWritten
  obtain ⟨shape, t, hHead, ha, -, hText⟩ := exists_tail_of_head hWritten
  by_cases hDigits : shape.digits = .some
  · have hNotDigit : HeadNot Char.isDigit text := by
      intro d hd
      rw [← Bool.not_eq_true]
      intro hDigit
      obtain ⟨more, rfl⟩ : ∃ more, text = d :: more := List.head?_eq_some_iff.mp hd
      have ha' : shape.Admits ⟨none, [d], false⟩ :=
        Token.admits_unsigned (by simpa using hDigit) (by simp [hDigits]) (by simp) (by simp)
      obtain ⟨token, hToken⟩ := Token.exists_written hHead ha'
      exact token_ne_stray hToken (by simp [Token.Tail.text]) hStray
    obtain ⟨d, ds, hd⟩ := List.exists_cons_of_ne_nil (ha.some hDigits)
    have hRest : d ∈ rest.head? := by
      have hSign := ha.sign_eq_none (Shape.sign_eq_false hHead hDigits)
      rw [← head_append c rest, ← hText]
      simp [Token.Tail.text, hSign, hd]
    have hDigit := ha.digits d (by simp [hd])
    rw [h hNotDigit d hRest] at hDigit
    cases hDigit
  · obtain ⟨token, hToken⟩ := Token.exists_written hHead (Token.admits_empty hDigits)
    exact token_ne_stray hToken (by simp [Token.Tail.text]) hStray

end Lexeme

namespace Options

/-! ### Commands -/

/-- The options delete the lexemes of this token. -/
def deletesToken (o : Options) : Token → Bool
  | .volume => o.stripVolume
  | .tempo => o.stripTempo
  | _ => false

/-- A letter and one digit or more. -/
def IsCommand (p : Char → Bool) (text : List Char) : Prop :=
  ∃ letter digits, text = letter :: digits ∧ p letter = true ∧ Numeral.isNumeral digits = true

theorem isCommand_of_written (h : Written text token) (hToken : o.deletesToken token = true) :
    IsCommand o.deletes text := by
  cases h with
  | volume h => exact ⟨_, _, rfl, deletes_iff.mpr (.inl ⟨hToken, .inl rfl⟩), h⟩
  | tempo h => exact ⟨_, _, rfl, deletes_iff.mpr (.inr ⟨hToken, .inl rfl⟩), h⟩
  | _ => cases hToken

theorem deletes_eq_false_of_isInner (h : isInner c = true) : o.deletes c = false := by
  rw [← Bool.not_eq_true]
  intro hLetter
  rcases deletes_iff.mp hLetter with ⟨-, rfl | rfl⟩ | ⟨-, rfl | rfl⟩ <;> cases h

theorem deletes_eq_false_of_written (h : Written text token)
    (hToken : o.deletesToken token = false) : ∀ d ∈ text, o.deletes d = false := by
  obtain ⟨c, shape, t, rfl, hHead, ha⟩ := h.exists_tail
  have hRead := h.read?
  refine List.forall_mem_cons.mpr ⟨?_, fun d hd => deletes_eq_false_of_isInner (ha.isInner d hd)⟩
  rw [← Bool.not_eq_true]
  intro hLetter
  rcases deletes_iff.mp hLetter with ⟨hStrip, rfl | rfl⟩ | ⟨hStrip, rfl | rfl⟩
  · obtain rfl : .volume = token := Option.some.inj hRead
    rw [deletesToken, hStrip] at hToken
    cases hToken
  · cases hHead
  · obtain rfl : .tempo = token := Option.some.inj hRead
    rw [deletesToken, hStrip] at hToken
    cases hToken
  · cases hHead

/-- Nothing but a digit makes a command longer. -/
theorem isDigit_of_written (h : IsCommand o.deletes text) (hWritten : Written (text ++ [c]) token) :
    c.isDigit = true := by
  obtain ⟨letter, digits, rfl, hLetter, -⟩ := h
  obtain ⟨d, shape, t, hText, hHead, ha⟩ := hWritten.exists_tail
  obtain ⟨rfl, hTail⟩ := List.cons.inj hText
  have hMem := ha.of_mem_text (c := c) (by simp [← hTail])
  rcases deletes_iff.mp hLetter with ⟨-, rfl | rfl⟩ | ⟨-, rfl | rfl⟩ <;> cases hHead <;>
    simpa using hMem

theorem ends_command_iff (h : Written text token) (hToken : o.deletesToken token = true) :
    Ends text rest ↔ HeadNot Char.isDigit rest := by
  cases rest with
  | nil => exact iff_of_true (fun _ _ _ _ _ _ => .of_headNot (headNot_nil _)) (headNot_nil _)
  | cons d rest =>
    rw [Lexeme.ends_cons_iff h, headNot_cons, ← Bool.not_eq_true]
    constructor
    · intro hNot hDigit
      have hLonger : ∀ {digits : List Char}, Numeral.isNumeral digits = true →
          Numeral.isNumeral (digits ++ [d]) = true := by
        intro digits h
        rw [Numeral.isNumeral_iff] at h ⊢
        simpa [or_imp, forall_and, hDigit] using h.2
      cases h with
      | volume h => exact hNot _ (.volume (hLonger h))
      | tempo h => exact hNot _ (.tempo (hLonger h))
      | _ => cases hToken
    · intro hNot token' hWritten
      exact hNot (isDigit_of_written (isCommand_of_written h hToken) hWritten)

theorem IsCommand.deleteCommands_append (hDigit : ∀ c, p c = true → c.isDigit = false)
    {commands : List (List Char)} (h : ∀ command ∈ commands, IsCommand p command)
    (hRest : HeadNot Char.isDigit rest) :
    HeadNot Char.isDigit (commands.flatten ++ rest) ∧
      deleteCommands p (commands.flatten ++ rest) = deleteCommands p rest := by
  induction commands with
  | nil => exact ⟨hRest, rfl⟩
  | cons command commands ih =>
    rw [List.forall_mem_cons] at h
    obtain ⟨hNext, hDelete⟩ := ih h.2
    obtain ⟨letter, digits, rfl, hLetter, hDigits⟩ := h.1
    rw [List.flatten_cons, List.cons_append, List.cons_append, List.append_assoc,
      deleteCommands_command hLetter hDigits hNext]
    exact ⟨headNot_cons.mpr (hDigit letter hLetter), hDelete⟩

/-- What comes first when the commands are deleted stands behind commands. -/
theorem exists_commands_of_deleteCommands {more : List Char}
    (h : deleteCommands p text = c :: more) :
    ∃ commands behind, (∀ command ∈ commands, IsCommand p command) ∧
      text = commands.flatten ++ c :: behind ∧ (commands ≠ [] → c.isDigit = false) := by
  induction text using command_induction p with
  | nil => simp [deleteCommands] at h
  | command letter digits rest hLetter hDigits hRest ih =>
    rw [deleteCommands_command hLetter hDigits hRest] at h
    obtain ⟨commands, behind, hCommands, rfl, hDigit⟩ := ih h
    refine ⟨(letter :: digits) :: commands, behind, ?_, by simp, fun _ => ?_⟩
    · exact List.forall_mem_cons.mpr ⟨⟨letter, digits, rfl, hLetter, hDigits⟩, hCommands⟩
    · cases commands with
      | nil => exact headNot_cons.mp hRest
      | cons command commands => exact hDigit (by simp)
  | other d text hd ih =>
    rw [deleteCommands_cons hd] at h
    obtain ⟨rfl, -⟩ := List.cons.inj h
    exact ⟨[], text, by simp, rfl, by simp⟩

/-! ### Tokens that take what was not theirs -/

/-- Commands that the options delete stand directly behind the lexeme, and directly behind them
stands a character which would belong to its token. -/
def Joins (o : Options) (source : List Char) (x : Lexeme) : Prop :=
  ∃ commands c, commands ≠ [] ∧ (∀ command ∈ commands, IsCommand o.deletes command) ∧
    c.isDigit = false ∧ StandsAt source x.span.start (x.raw ++ (commands.flatten ++ [c])) ∧
    ∃ token, Written (x.raw ++ [c]) token

theorem isInner_of_written (hNe : text ≠ []) (h : Written (text ++ [c]) token) :
    isInner c = true := by
  obtain ⟨d, tail, rfl⟩ := List.exists_cons_of_ne_nil hNe
  obtain ⟨d', shape, t, hText, -, ha⟩ := h.exists_tail
  obtain ⟨-, hTail⟩ := List.cons.inj hText
  exact ha.isInner c (by simp [← hTail])

/-- A lexeme takes what was not its own exactly if it does not end in front of what the deletions
leave behind it. -/
theorem joins_iff {x : Lexeme} (hNe : x.raw ≠ [])
    (hCut : Span.cut? x.span.start source = some (before, x.raw ++ rest))
    (hWritten : Written x.raw token) (hEnds : Ends x.raw rest) :
    o.Joins source x ↔ ¬Ends x.raw (deleteCommands o.deletes rest) := by
  constructor
  · rintro ⟨commands, c, -, hCommands, hDigit, hStands, token', hJoined⟩ hEndsLeft
    rw [Span.standsAt_iff hCut, List.prefix_append_right_inj] at hStands
    obtain ⟨behind, rfl⟩ := hStands
    have hLetter : o.deletes c = false :=
      deletes_eq_false_of_isInner (isInner_of_written hNe hJoined)
    have hLeft := (IsCommand.deleteCommands_append (fun _ => isDigit_eq_false_of_deletes) hCommands
      (headNot_cons.mpr hDigit : HeadNot Char.isDigit (c :: behind))).2
    rw [List.append_assoc, List.singleton_append, hLeft,
      deleteCommands_cons fun h => absurd h (by simp [hLetter]),
      Lexeme.ends_cons_iff hWritten] at hEndsLeft
    exact hEndsLeft token' hJoined
  · intro hNot
    cases hLeft : deleteCommands o.deletes rest with
    | nil =>
      rw [hLeft] at hNot
      exact absurd (fun _ _ _ _ _ _ => .of_headNot (headNot_nil _)) hNot
    | cons c more =>
      rw [hLeft, Lexeme.ends_cons_iff hWritten, not_forall] at hNot
      obtain ⟨token', hJoined⟩ := hNot
      obtain ⟨commands, behind, hCommands, rfl, hDigit⟩ := exists_commands_of_deleteCommands hLeft
      have hCommand : commands ≠ [] := by
        rintro rfl
        exact hJoined ((Lexeme.ends_cons_iff hWritten).mp hEnds token')
      refine ⟨commands, c, hCommand, hCommands, hDigit hCommand, ?_, token', not_not.mp hJoined⟩
      rw [Span.standsAt_iff hCut, List.prefix_append_right_inj]
      exact ⟨behind, by simp⟩

/-! ### The scan of what is left -/

theorem contents_deleteCommands_stray (hUpper : c ≠ 'V' ∧ c ≠ 'T') (hGap : Text.isGap c = false)
    (hStray : Lexeme.head c text = ⟨.stray, [], text⟩) :
    contents (deleteCommands o.deletes (c :: text)) =
      contents (deleteCommands o.deletes text) := by
  have hToken : (Lexeme.head c text).token = .stray := by rw [hStray]
  have hBare : o.deletes c = true → HeadNot Char.isDigit text := by
    intro hLetter d hd
    rw [← Bool.not_eq_true]
    intro hDigit
    obtain ⟨more, rfl⟩ : ∃ more, text = d :: more := List.head?_eq_some_iff.mp hd
    have hNumeral : Numeral.isNumeral [d] = true := by simp [Numeral.isNumeral, hDigit]
    rcases deletes_iff.mp hLetter with ⟨-, rfl | rfl⟩ | ⟨-, rfl | rfl⟩
    · exact Lexeme.token_ne_stray (.volume hNumeral) (by simp) hToken
    · exact hUpper.1 rfl
    · exact Lexeme.token_ne_stray (.tempo hNumeral) (by simp) hToken
    · exact hUpper.2 rfl
  rw [deleteCommands_cons hBare, Lexeme.contents_cons hGap,
    Lexeme.head_stray hToken headNot_deleteCommands]
  rfl

/-- A lexeme that is deleted takes nothing, and one that stays is read again exactly if it ends in
front of what the deletions leave behind it. -/
theorem raws_deleteCommands_append_iff (h : Written text token) (hEnds : Ends text rest)
    (raws : List (List Char)) :
    (contents (deleteCommands o.deletes (text ++ rest))).map (·.2) =
        ([(token, text)].filter (!o.deletesToken ·.1)).map (·.2) ++ raws ↔
      Ends text (deleteCommands o.deletes rest) ∧
        (contents (deleteCommands o.deletes rest)).map (·.2) = raws := by
  cases hToken : o.deletesToken token with
  | true =>
    have hRest := (ends_command_iff h hToken).mp hEnds
    have hCommand : ∀ command ∈ [text], IsCommand o.deletes command :=
      List.forall_mem_singleton.mpr (isCommand_of_written h hToken)
    have hDelete := (IsCommand.deleteCommands_append (fun _ => isDigit_eq_false_of_deletes)
      hCommand hRest).2
    rw [List.flatten_singleton] at hDelete
    rw [hDelete, ends_command_iff h hToken]
    simp [hToken, headNot_deleteCommands hRest]
  | false =>
    rw [deleteCommands_append (deletes_eq_false_of_written h hToken),
      ← Lexeme.raws_contents_written_append_iff h]
    simp [hToken]

/-- The step of the scan at a lexeme: it stays, or is deleted, and the other lexemes behind it stay,
exactly if it takes nothing and they do. -/
theorem raws_deleteCommands_first_iff (hGap : Text.isGap c = false)
    (hCut : Span.cut? start source = some (before, c :: text))
    (hWritten : Written (c :: (Lexeme.head c text).tail) (Lexeme.head c text).token) :
    (contents (deleteCommands o.deletes (c :: text))).map (·.2) =
        ((contents (c :: text)).filter (!o.deletesToken ·.1)).map (·.2) ↔
      ¬o.Joins source (Lexeme.first start c text) ∧
        (contents (deleteCommands o.deletes (Lexeme.head c text).rest)).map (·.2) =
          ((contents (Lexeme.head c text).rest).filter (!o.deletesToken ·.1)).map (·.2) := by
  have hText := Lexeme.head_append c text
  have hCutHead : Span.cut? start source = some (before,
      (c :: (Lexeme.head c text).tail) ++ (Lexeme.head c text).rest) := by
    rwa [List.cons_append, hText]
  have hEnds := Lexeme.ends_head hWritten
  have hJoins : o.Joins source (Lexeme.first start c text) ↔
      ¬Ends (c :: (Lexeme.head c text).tail)
        (deleteCommands o.deletes (Lexeme.head c text).rest) :=
    joins_iff (x := Lexeme.first start c text) (List.cons_ne_nil _ _) hCutHead hWritten hEnds
  have hContents : contents (c :: text) =
      [((Lexeme.head c text).token, c :: (Lexeme.head c text).tail)] ++
        contents (Lexeme.head c text).rest :=
    Lexeme.contents_cons_of_written hGap hWritten
  have hRaws := raws_deleteCommands_append_iff (o := o) hWritten hEnds
  rw [List.cons_append, hText] at hRaws
  rw [hContents, List.filter_append, List.map_append, hRaws, hJoins, not_not]

/-- From a place on, the other lexemes stay exactly if none of them takes what was not its own. -/
theorem raws_deleteCommands_iff (hUpper : ∀ c ∈ rest, c ≠ 'V' ∧ c ≠ 'T')
    (hCut : Span.cut? start source = some (before, rest)) :
    (contents (deleteCommands o.deletes rest)).map (·.2) =
        ((contents rest).filter (!o.deletesToken ·.1)).map (·.2) ↔
      ∀ x ∈ Lexeme.scanFrom start rest, x.token ≠ .stray → ¬o.Joins source x := by
  induction start, rest using Lexeme.scanFrom.induct generalizing before with
  | case1 start => simp [deleteCommands, Lexeme.scanFrom]
  | case2 start c rest hGap ih =>
    have hLetter : o.deletes c = false := by
      rw [← Bool.not_eq_true]
      intro hLetter
      rcases deletes_iff.mp hLetter with ⟨-, rfl | rfl⟩ | ⟨-, rfl | rfl⟩ <;> cases hGap
    rw [deleteCommands_cons fun h => absurd h (by simp [hLetter]), Lexeme.contents_gap hGap,
      Lexeme.contents_gap hGap, Lexeme.scanFrom_gap hGap]
    exact ih (fun d hd => hUpper d (List.mem_cons_of_mem _ hd)) (Lexeme.cut?_cons hCut)
  | @case3 start c rest hGap stop ih =>
    rw [Bool.not_eq_true] at hGap
    have hText := Lexeme.head_append c rest
    have hRest : ∀ d ∈ (Lexeme.head c rest).rest, d ≠ 'V' ∧ d ≠ 'T' := by
      intro d hd
      refine hUpper d (List.mem_cons_of_mem _ ?_)
      rw [← hText]
      exact List.mem_append_right _ hd
    have hBehind := ih hRest (Lexeme.cut?_head hCut)
    rw [Lexeme.scanFrom_cons hGap, List.forall_mem_cons, ← hBehind]
    rcases head_stray_or_written c rest with hStray | hWritten
    · rw [List.forall_mem_cons] at hUpper
      rw [contents_deleteCommands_stray hUpper.1 hGap hStray, Lexeme.contents_cons hGap, hStray]
      simp
    · rw [raws_deleteCommands_first_iff hGap hCut hWritten]
      refine and_congr_left fun _ => ?_
      exact ⟨fun h _ => h, fun h => h (Lexeme.Written.ne_stray hWritten)⟩

/-- When the commands of a source without the letters `V` and `T` are deleted, all other lexemes
stay as they are exactly if none of them takes what was not its own: no note, rest, length or number
stands directly before deleted commands with a dot directly behind them, and no bare note letter
before deleted commands with a sign behind them. -/
theorem raws_tokenize_preprocess_iff (o : Options) {source : List Char}
    (hUpper : ∀ c ∈ source, c ≠ 'V' ∧ c ≠ 'T') :
    (Lexeme.tokenize (o.preprocess source)).map (·.raw) =
        ((Lexeme.tokenize source).filter (!o.deletesToken ·.token)).map (·.raw) ↔
      ∀ x ∈ Lexeme.tokenize source, ¬o.Joins source x := by
  have hRaws : ∀ xs : List Lexeme, xs.map (·.raw) = (xs.map Lexeme.content).map (·.2) := by
    intro xs
    rw [List.map_map]
    rfl
  have hKept : ((Lexeme.tokenize source).filter (!o.deletesToken ·.token)).map Lexeme.content =
      (contents source).filter (!o.deletesToken ·.1) := by
    rw [contents, List.filter_map]
    rfl
  rw [hRaws, hRaws, hKept, preprocess_eq]
  refine (raws_deleteCommands_iff hUpper (Lexeme.cut?_zero source)).trans ?_
  simp only [Lexeme.mem_tokenize_iff, and_imp]
  rfl

/-- A source with dots and signs behind commands in which no lexeme takes one, and a source in which
a note takes a sign. -/
theorem raws_tokenize_preprocess_sign :
    (∀ x ∈ Lexeme.tokenize "t120l4.v9.o2v3t80c+v1 .dt5>".toList,
        ¬Joins ⟨true, true⟩ "t120l4.v9.o2v3t80c+v1 .dt5>".toList x) ∧
      ¬∀ x ∈ Lexeme.tokenize "cv1+".toList, ¬Joins ⟨true, false⟩ "cv1+".toList x := by
  refine ⟨(raws_tokenize_preprocess_iff ⟨true, true⟩ (by simp)).mp (by decide +kernel), ?_⟩
  rw [← raws_tokenize_preprocess_iff ⟨true, false⟩ (by simp)]
  decide +kernel

/-- A note takes the sign behind a volume command when the command is deleted. -/
theorem not_forall_raws_tokenize_preprocess :
    ¬∀ (o : Options) (source : List Char), (∀ c ∈ source, c ≠ 'V' ∧ c ≠ 'T') →
      (Lexeme.tokenize (o.preprocess source)).map (·.raw) =
        ((Lexeme.tokenize source).filter (!o.deletesToken ·.token)).map (·.raw) := by
  intro h
  exact absurd (h ⟨true, false⟩ "cv1+".toList (by simp)) (by decide +kernel)

end Options

end Drumline
