import Drumline.Proofs.Command
import Drumline.Proofs.Fragment.Words
import Drumline.Proofs.Lexeme.Tiling
import Drumline.Proofs.Log
import Drumline.Proofs.Token.Checked

/-! Converting a voice in checked steps.  Each pass of a conversion is repeated here so that it
breaks off with a `Failure` where a text cannot be cut, a character is no digit, a text of the right
shape spells no token, or a note has no pitch.  The main statement is `neverFails`: no pass breaks
off, whatever the text, and each gives what it gives without the checks. -/

namespace Drumline

open Token (Written)

/-- The tokens whose text is copied. -/
def Token.isCopied : Token → Bool
  | lengthMacro _ | volume | tempo | number => true
  | _ => false

namespace Checked

/-! ### Reading -/

/-- The first token of `c :: text`, where `c` is no gap.  A text of the right shape has to spell a
token; where there is none, `c` is a stray. -/
def headToken (c : Char) (text : List Char) : Except Failure Token :=
  match (Token.Shape.ofHead? c).bind (·.split? text) with
  | some (tail, _) => readToken (c :: tail)
  | none => .ok .stray

/-- The lexemes and strays of the part of a voice that starts at byte `start`.  Their texts are cut
out of the voice. -/
def scanFrom (voice : List Char) (start : Nat) : List Char → Except Failure (List Lexeme)
  | [] => .ok []
  | c :: text =>
    if Text.isGap c then
      scanFrom voice (start + c.utf8Size) text
    else do
      let stop := start + Text.byteSize (c :: (Lexeme.head c text).tail)
      let token ← headToken c text
      let raw ← slice voice ⟨start, stop⟩
      let rest ← scanFrom voice stop (Lexeme.head c text).rest
      return ⟨token, raw, ⟨start, stop⟩⟩ :: rest
  termination_by text => text.length
  decreasing_by
    · simp
    · have := Lexeme.length_head_rest_le c text
      simp only [List.length_cons]
      omega

def tokenize (voice : List Char) : Except Failure (List Lexeme) := do
  let xs ← scanFrom voice 0 voice
  return xs.filter (!·.isStray)

/-! ### Playing -/

/-- The fragment that a lexeme emits.  A note has to have a pitch. -/
def emit? (s : State) (x : Lexeme) : Except Failure (Option Fragment) :=
  match x.token with
  | .note letter accidental duration =>
    match Pitch.absolute s.octave letter accidental with
    | .ok number => .ok (some (.note (duration.resolve s.length) (Numeral.ofInt number)))
    | .error error => .error (.noPitch error)
  | _ => .ok (s.emit? x)

def emitAll (s : State) : List Lexeme → Except Failure (List Fragment)
  | [] => .ok []
  | x :: xs => do
    let first? ← emit? s x
    let rest ← emitAll (s.advance x.token) xs
    return first?.toList ++ rest

def fragments (voice : List Char) : Except Failure (List Fragment) := do
  let emitted ← emitAll .initial (← tokenize voice)
  return Fragment.resolveTies emitted

/-! ### Sounds and compaction -/

def sounding (letter : Char) (digits : List Char) : Except Failure (List Char) := do
  match Kit.sound? (← readWord digits) with
  | some sound => return letter :: Numeral.ofNat sound
  | none => return letter :: digits

def soundPiece : Piece → Except Failure (List Char)
  | .command letter digits => sounding letter digits
  | .other c => .ok [c]

def remap (text : List Char) : Except Failure (List Char) := do
  let parts ← (Piece.ofText (· == 'n') text).mapM soundPiece
  return parts.flatten

def spaced (voice : List Char) : Except Failure (List Char) := do
  remap (Fragment.join (← fragments voice))

def markRepeats (last : Option Length) : List Run → Except Failure (List (Run × Bool))
  | [] => .ok []
  | run :: runs => do
    let length? ← parseMacro? run.text
    let marked ← markRepeats (length? <|> last) runs
    return (run, length?.isSome && length? == last) :: marked

def compact (text : List Char) : Except Failure (List Char) := do
  let marked ← markRepeats none (Run.scan text)
  return (marked.filter (!·.2)).flatMap (·.1.text)

/-! ### No step breaks off -/

variable {voice before rest : List Char} {start : Nat} {s : State} {x : Lexeme}
  {xs : List Lexeme}

theorem mapM_eq_ok {α β : Type} {f : α → Except Failure β} {g : α → β} {as : List α}
    (h : ∀ a ∈ as, f a = .ok (g a)) : as.mapM f = .ok (as.map g) := by
  induction as with
  | nil => rfl
  | cons a as ih =>
    rw [List.forall_mem_cons] at h
    rw [List.mapM_cons, bind_eq_ok h.1, bind_eq_ok (ih h.2)]
    rfl

theorem headToken_eq_ok (c : Char) (text : List Char) :
    headToken c text = .ok (Lexeme.head c text).token := by
  unfold headToken Lexeme.head
  cases hSplit : (Token.Shape.ofHead? c).bind (·.split? text) with
  | none => rfl
  | some cut =>
    obtain ⟨token, hToken⟩ := Lexeme.exists_written_of_split? hSplit
    simp [readToken_eq_ok hToken, hToken.read?]

theorem scanFrom_eq_ok (hCut : Span.cut? start voice = some (before, rest)) :
    scanFrom voice start rest = .ok (Lexeme.scanFrom start rest) := by
  induction start, rest using Lexeme.scanFrom.induct generalizing before with
  | case1 start => simp [scanFrom, Lexeme.scanFrom]
  | case2 start c rest hGap ih =>
    rw [scanFrom, if_pos hGap, Lexeme.scanFrom_gap hGap]
    exact ih (Lexeme.cut?_cons hCut)
  | @case3 start c rest hGap stop ih =>
    have hRaw : slice voice ⟨start, stop⟩ = .ok (c :: (Lexeme.head c rest).tail) :=
      slice_eq_ok_iff.mpr (Lexeme.slice?_first hCut)
    rw [scanFrom, if_neg hGap, Lexeme.scanFrom_cons (by simpa using hGap),
      bind_eq_ok (headToken_eq_ok c rest), bind_eq_ok hRaw, bind_eq_ok (ih (Lexeme.cut?_head hCut))]
    rfl

theorem tokenize_eq_ok (voice : List Char) : tokenize voice = .ok (Lexeme.tokenize voice) := by
  rw [tokenize, bind_eq_ok (scanFrom_eq_ok (Lexeme.cut?_zero voice))]
  rfl

theorem emit?_eq_ok (h : Written x.raw x.token) : emit? s x = .ok (s.emit? x) := by
  obtain ⟨token, raw, span⟩ := x
  cases token with
  | note letter accidental duration =>
    obtain ⟨number, hNumber⟩ := h.exists_absolute s.octave
    simp [emit?, State.emit?, hNumber]
  | _ => rfl

theorem emitAll_eq_ok (h : ∀ x ∈ xs, Written x.raw x.token) :
    emitAll s xs = .ok (s.emitAll xs) := by
  induction xs generalizing s with
  | nil => rfl
  | cons x xs ih =>
    rw [List.forall_mem_cons] at h
    rw [emitAll, bind_eq_ok (emit?_eq_ok h.1), bind_eq_ok (ih h.2)]
    rfl

theorem fragments_eq_ok (voice : List Char) : fragments voice = .ok (Voice.fragments voice) := by
  rw [fragments, bind_eq_ok (tokenize_eq_ok voice),
    bind_eq_ok (emitAll_eq_ok fun _ => Lexeme.written_of_mem_tokenize)]
  rfl

theorem sounding_eq_ok (letter : Char) {digits : List Char}
    (h : Numeral.isNumeral digits = true) :
    sounding letter digits = .ok (Kit.sounding letter digits) := by
  rw [sounding, bind_eq_ok (readWord_eq_ok_iff.mpr (Numeral.isNumeral_iff.mp h).2), Kit.sounding]
  cases Kit.sound? (Numeral.readWord digits) <;> rfl

theorem remap_eq_ok (text : List Char) : remap text = .ok (Kit.remap text) := by
  have hPieces : ∀ piece ∈ Piece.ofText (· == 'n') text, soundPiece piece = .ok (match piece with
      | .command letter digits => Kit.sounding letter digits
      | .other c => [c]) := by
    intro piece hPiece
    cases piece with
    | command letter digits => exact sounding_eq_ok letter (Piece.isNumeral_of_mem_ofText hPiece)
    | other c => rfl
  rw [remap, bind_eq_ok (mapM_eq_ok hPieces), Kit.remap, replaceCommands, List.flatMap_def]
  rfl

theorem spaced_eq_ok (voice : List Char) : spaced voice = .ok (Voice.spaced voice) := by
  rw [spaced, bind_eq_ok (fragments_eq_ok voice), remap_eq_ok]
  rfl

theorem markRepeats_eq_ok (last : Option Length) (runs : List Run) :
    markRepeats last runs = .ok (Run.markRepeats last runs) := by
  induction runs generalizing last with
  | nil => rfl
  | cons run runs ih =>
    rw [markRepeats, bind_eq_ok (parseMacro?_eq_ok run.text), bind_eq_ok (ih _)]
    rfl

theorem compact_eq_ok (text : List Char) : compact text = .ok (Drumline.compact text) := by
  rw [compact, bind_eq_ok (markRepeats_eq_ok none (Run.scan text))]
  rfl

end Checked

/-! ### No note is kept as written -/

section Kept

variable {s : State} {x : Lexeme} {xs : List Lexeme} {e : Event} {raw : List Char}

theorem State.events_eq_nil (h : x.token = .stray ∨ Written x.raw x.token) : s.events x = [] := by
  obtain ⟨token, raw, span⟩ := x
  cases token with
  | note letter accidental duration =>
    obtain ⟨number, hNumber⟩ := (h.resolve_left (by simp)).exists_absolute s.octave
    simp [events, hNumber]
  | _ => rfl

theorem State.exists_of_mem_scanEvents (h : ∀ x ∈ xs, x.token = .stray ∨ Written x.raw x.token)
    (he : e ∈ s.scanEvents xs) : ∃ x ∈ xs, e = .dropped x := by
  induction xs generalizing s with
  | nil => cases he
  | cons x xs ih =>
    rw [List.forall_mem_cons] at h
    rw [scanEvents, events_eq_nil h.1, List.mem_append] at he
    rcases he with he | he
    · split at he
      · exact ⟨x, by simp, List.mem_singleton.mp he⟩
      · cases he
    · obtain ⟨y, hy, rfl⟩ := ih h.2 he
      exact ⟨y, by simp [hy], rfl⟩

/-- A voice never reports that a note is kept as written. -/
theorem Voice.keptAsWritten_not_mem_events (voice raw : List Char) (error : Pitch.Error) :
    .keptAsWritten raw error ∉ events voice := by
  intro hMem
  rcases mem_events hMem with h | ⟨_, _, h⟩ | ⟨_, h⟩ | ⟨_, h⟩ | ⟨_, h⟩
  · obtain ⟨x, -, hEq⟩ := State.exists_of_mem_scanEvents
      (fun _ => Lexeme.stray_or_written_of_mem_scanFrom) h
    cases hEq
  all_goals cases h

theorem State.isCopied_of_emit? (hx : Written x.raw x.token)
    (h : s.emit? x = some (.verbatim raw)) : x.raw = raw ∧ x.token.isCopied = true := by
  obtain ⟨token, text, span⟩ := x
  cases token with
  | note letter accidental duration =>
    obtain ⟨number, hNumber⟩ := hx.exists_absolute s.octave
    simp [emit?, hNumber] at h
  | lengthMacro | volume | tempo | number =>
    cases h
    exact ⟨rfl, rfl⟩
  | _ => cases h

end Kept

/-! ### The passes as a whole -/

/-- No pass over the text breaks off: each gives in checked steps what it gives without the checks.
No character is dropped that is part of a token, and no note is copied for want of a pitch. -/
structure NeverFails (text : List Char) : Prop where
  tokenize : Checked.tokenize text = .ok (Lexeme.tokenize text)
  fragments : Checked.fragments text = .ok (Voice.fragments text)
  spaced : Checked.spaced text = .ok (Voice.spaced text)
  remap : Checked.remap text = .ok (Kit.remap text)
  compact : Checked.compact text = .ok (Drumline.compact text)
  /-- A character is dropped only where nothing of the grammar stands. -/
  dropped : ∀ x ∈ Lexeme.strays text, Lexeme.IsDropped text x
  /-- A note has a pitch in every octave. -/
  pitch : ∀ x ∈ Lexeme.tokenize text, ∀ letter accidental duration,
    x.token = .note letter accidental duration →
      ∀ octave, ∃ number, Pitch.absolute octave letter accidental = .ok number
  /-- No note is reported as kept as written. -/
  kept : ∀ raw error, .keptAsWritten raw error ∉ Voice.events text
  /-- What is copied is the text of a length macro, a volume, a tempo or a number. -/
  copied : ∀ raw, .verbatim raw ∈ Voice.fragments text →
    ∃ x ∈ Lexeme.tokenize text, x.raw = raw ∧ x.token.isCopied = true

/-- The passes go through every text, whatever its characters. -/
theorem neverFails (text : List Char) : NeverFails text where
  tokenize := Checked.tokenize_eq_ok text
  fragments := Checked.fragments_eq_ok text
  spaced := Checked.spaced_eq_ok text
  remap := Checked.remap_eq_ok text
  compact := Checked.compact_eq_ok text
  dropped := (Lexeme.tiles_scan text).isDropped
  pitch := by
    intro x hx letter accidental duration hToken octave
    have hWritten := Lexeme.written_of_mem_tokenize hx
    rw [hToken] at hWritten
    exact hWritten.exists_absolute octave
  kept := Voice.keptAsWritten_not_mem_events text
  copied := by
    intro raw hRaw
    obtain ⟨x, hx, s, hEmit⟩ := Voice.exists_emit?_of_verbatim hRaw
    exact ⟨x, hx, State.isCopied_of_emit? (Lexeme.written_of_mem_tokenize hx) hEmit⟩

/-- Characters of several bytes stand between the tokens. -/
example : Checked.spaced "é드c+4.ö🥁n035".toList = .ok "l4. n49 l4 n64".toList := by
  decide +kernel

end Drumline
