import Drumline.Proofs.Fragment.Words
import Mathlib.Algebra.Group.Nat.Defs
import Mathlib.Data.List.Infix

/-! A voice read in exact integers.  `Lexeme.fragment?` says what a lexeme stands for by the lexemes
before it, without a state and without bounds.  The main statement is `emitAll_exact`, that the
player emits these fragments as long as no octave comes near the ends of a signed word. -/

namespace Drumline

open Token (Written)

/-! ### Exact reading -/

/-- The number of a note in exact integers; a natural `a` of octave 2 is two semitones higher. -/
def Pitch.number? (octave : Int) (letter : Char) (accidental : Accidental) : Option Int :=
  (semitone? letter).map fun semitone =>
    12 * octave + semitone + accidental.offset +
      if octave = 2 ∧ letter = 'a' ∧ accidental = .natural then 2 else 0

namespace Lexeme

/-- The number that an octave token sets, however many digits it has. -/
def octaveNumber? (x : Lexeme) : Option Nat :=
  match x.token with
  | .octaveSet _ => some (Numeral.value x.raw.tail)
  | _ => none

def isOctaveStep (x : Lexeme) : Bool := x.token = .octaveUp ∨ x.token = .octaveDown

def isOctave (x : Lexeme) : Bool := x.octaveNumber?.isSome || x.isOctaveStep

/-- The octave behind the lexemes: the number that was set last, or 4, with the steps up and down
since then. -/
def octaveBehind (before : List Lexeme) : Int :=
  let since := before.reverse.takeWhile (·.octaveNumber?.isNone)
  ((before.reverse.findSome? octaveNumber?).getD 4 : Nat) +
    since.countP (·.token = .octaveUp) - since.countP (·.token = .octaveDown)

/-- The length behind the lexemes: that of the last length macro, or a quarter. -/
def lengthBehind (before : List Lexeme) : Length :=
  (before.reverse.findSome? (·.token.length?)).getD ⟨4, false⟩

/-- The length of a note or rest behind the lexemes: its own one if it has digits. -/
def durationBehind (before : List Lexeme) (d : Duration) : Length :=
  match d.value with
  | some value => ⟨value, d.dotted⟩
  | none => ⟨(lengthBehind before).value, d.dotted || (lengthBehind before).dotted⟩

/-- The fragment that the lexeme stands for behind other lexemes. -/
def fragment? (before : List Lexeme) (x : Lexeme) : Option Fragment :=
  match x.token with
  | .octaveSet _ | .octaveUp | .octaveDown | .stray => none
  | .tie => some .tie
  | .rest duration => some (.rest (durationBehind before duration))
  | .absolute digits duration => some (.note (durationBehind before duration) digits)
  | .note letter accidental duration =>
    (Pitch.number? (octaveBehind before) letter accidental).map fun number =>
      .note (durationBehind before duration) (Numeral.ofInt number)
  | .lengthMacro _ | .volume | .tempo | .number => some (.verbatim x.raw)

variable {before : List Lexeme} {x : Lexeme} {n : Nat}

theorem octaveBehind_set (h : x.octaveNumber? = some n) : octaveBehind (before ++ [x]) = n := by
  simp [octaveBehind, h]

theorem octaveBehind_step (h : x.octaveNumber? = none) : octaveBehind (before ++ [x]) =
    octaveBehind before + (if x.token = .octaveUp then 1 else 0) -
      if x.token = .octaveDown then 1 else 0 := by
  simp only [octaveBehind, List.reverse_append, List.reverse_singleton, List.singleton_append,
    List.findSome?_cons, h, Option.isNone_none, List.takeWhile_cons_of_pos, List.countP_cons]
  split <;> split <;> simp_all <;> omega

theorem lengthBehind_concat (before : List Lexeme) (x : Lexeme) :
    lengthBehind (before ++ [x]) = x.token.length?.getD (lengthBehind before) := by
  cases h : x.token.length? <;> simp [lengthBehind, h]

end Lexeme

/-! ### Notes -/

namespace Pitch

theorem clamp_eq_self {i : Int} (hLeast : least ≤ i) (hGreatest : i ≤ greatest) : clamp i = i := by
  unfold clamp
  omega

/-- Octaves that are no further from zero have exact note numbers. -/
def octaveBound : Nat := 76 * 10 ^ 16

theorem semitone?_bounds {letter : Char} {semitone : Int} (h : semitone? letter = some semitone) :
    0 ≤ semitone ∧ semitone ≤ 11 := by
  unfold semitone? at h
  split at h <;> cases h <;> exact ⟨by decide, by decide⟩

theorem exists_number? {letter : Char} (h : Token.isNoteLetter letter = true) (octave : Int)
    (accidental : Accidental) : ∃ number, number? octave letter accidental = some number := by
  rcases Token.isNoteLetter_iff.mp h with rfl | rfl | rfl | rfl | rfl | rfl | rfl <;>
    exact ⟨_, rfl⟩

theorem absolute_eq_number? {octave : Int} (hOctave : octave.natAbs ≤ octaveBound) {letter : Char}
    {accidental : Accidental} {number : Int} (h : number? octave letter accidental = some number) :
    absolute octave letter accidental = .ok number := by
  obtain ⟨semitone, hSemitone, rfl⟩ := Option.map_eq_some_iff.mp h
  have hBounds := semitone?_bounds hSemitone
  have hOffset : -1 ≤ accidental.offset ∧ accidental.offset ≤ 1 := by cases accidental <;> decide
  have hCalibration : 0 ≤ calibration octave letter accidental ∧
      calibration octave letter accidental ≤ 2 := by
    unfold calibration
    split <;> decide
  have hClamp : ∀ i : Int, i.natAbs ≤ 12 * octaveBound + 14 → clamp i = i := by
    intro i hi
    unfold octaveBound at hi
    exact clamp_eq_self (by unfold least; omega) (by unfold greatest; omega)
  simp only [absolute, hSemitone]
  rw [hClamp (octave * 12) (by omega), hClamp (octave * 12 + semitone) (by omega),
    hClamp (octave * 12 + semitone + accidental.offset) (by omega), hClamp _ (by omega),
    Int.mul_comm octave]
  rfl

end Pitch

/-- Only octave tokens stand for no fragment. -/
theorem Lexeme.isOctave_eq {x : Lexeme} (hx : Written x.raw x.token) (before : List Lexeme) :
    x.isOctave = (x.fragment? before).isNone := by
  obtain ⟨token, raw, span⟩ := x
  cases token with
  | note letter accidental duration =>
    obtain ⟨number, hNumber⟩ :=
      Pitch.exists_number? hx.isNoteLetter (octaveBehind before) accidental
    simp only [fragment?, hNumber]
    rfl
  | stray => cases hx
  | _ => rfl

/-! ### Playing in exact integers -/

open Lexeme (octaveBehind lengthBehind durationBehind isOctaveStep)

theorem Token.readOctave_eq_value {digits : List Char} (h : Numeral.value digits ≤ 7 * 10 ^ 17) :
    readOctave digits = Numeral.value digits := by
  have hWord : Numeral.readWord digits = Numeral.value digits := by
    rw [Numeral.readWord, Numeral.readUpTo_eq_min, Nat.min_eq_left]
    unfold Numeral.greatestWord
    omega
  rw [readOctave, hWord]
  unfold Pitch.greatest
  omega

/-- The state is what the lexemes before it say, and the octave has not come too far. -/
structure State.Tracks (s : State) (before : List Lexeme) : Prop where
  octave : s.octave = octaveBehind before
  length : s.length = lengthBehind before
  bound : (octaveBehind before).natAbs ≤ 7 * 10 ^ 17 + before.countP isOctaveStep

namespace State

variable {s : State} {before xs : List Lexeme} {x : Lexeme}

theorem tracks_initial : initial.Tracks [] := ⟨rfl, rfl, by decide⟩

theorem Tracks.octave_advance (h : s.Tracks before) (hx : Written x.raw x.token)
    (hNumber : ∀ n ∈ x.octaveNumber?, n ≤ 7 * 10 ^ 17)
    (hSteps : before.countP isOctaveStep ≤ 6 * 10 ^ 16) :
    (s.advance x.token).octave = octaveBehind (before ++ [x]) := by
  have hBound := h.bound
  obtain ⟨token, raw, span⟩ := x
  cases token with
  | octaveSet octave =>
    cases hx with
    | @octaveSet digits hDigits =>
      rw [Lexeme.octaveBehind_set rfl]
      exact Token.readOctave_eq_value (hNumber _ rfl)
  | octaveUp =>
    rw [Lexeme.octaveBehind_step rfl, State.advance, h.octave, Pitch.clamp_eq_self]
    · simp
    · unfold Pitch.least; omega
    · unfold Pitch.greatest; omega
  | octaveDown =>
    rw [Lexeme.octaveBehind_step rfl, State.advance, h.octave, Pitch.clamp_eq_self]
    · simp
    · unfold Pitch.least; omega
    · unfold Pitch.greatest; omega
  | _ =>
    rw [Lexeme.octaveBehind_step rfl]
    simpa [State.advance] using h.octave

theorem Tracks.advance (h : s.Tracks before) (hx : Written x.raw x.token)
    (hNumber : ∀ n ∈ x.octaveNumber?, n ≤ 7 * 10 ^ 17)
    (hSteps : before.countP isOctaveStep ≤ 6 * 10 ^ 16) :
    (s.advance x.token).Tracks (before ++ [x]) := by
  refine ⟨h.octave_advance hx hNumber hSteps, ?_, ?_⟩
  · rw [Lexeme.lengthBehind_concat, ← h.length]
    cases x.token <;> rfl
  · have hBound := h.bound
    rw [List.countP_append, List.countP_singleton]
    cases hSet : x.octaveNumber? with
    | some n =>
      have hn := hNumber n hSet
      rw [Lexeme.octaveBehind_set hSet]
      omega
    | none =>
      rw [Lexeme.octaveBehind_step hSet]
      cases hToken : x.token <;> simp [isOctaveStep, hToken] <;> omega

/-- Behind the lexemes that led to the state, the player emits the fragment of the exact reading. -/
theorem Tracks.emit? (h : s.Tracks before) (hx : Written x.raw x.token)
    (hSteps : before.countP isOctaveStep ≤ 6 * 10 ^ 16) : s.emit? x = x.fragment? before := by
  have hDuration : ∀ d : Duration, d.resolve s.length = durationBehind before d := by
    intro d
    rw [h.length]
    rfl
  obtain ⟨token, raw, span⟩ := x
  cases token with
  | note letter accidental duration =>
    have hOctave : s.octave.natAbs ≤ Pitch.octaveBound := by
      have hBound := h.bound
      rw [h.octave]
      unfold Pitch.octaveBound
      omega
    obtain ⟨number, hNumber⟩ := Pitch.exists_number? hx.isNoteLetter s.octave accidental
    simp only [State.emit?, Pitch.absolute_eq_number? hOctave hNumber, Lexeme.fragment?,
      ← h.octave, hNumber, hDuration, Option.map_some]
  | rest | absolute => simp [State.emit?, Lexeme.fragment?, hDuration]
  | _ => rfl

theorem emitAll_eq_exact (h : s.Tracks before) (hWritten : ∀ x ∈ xs, Written x.raw x.token)
    (hNumbers : ∀ x ∈ xs, ∀ n ∈ x.octaveNumber?, n ≤ 7 * 10 ^ 17)
    (hSteps : (before ++ xs).countP isOctaveStep ≤ 6 * 10 ^ 16) :
    (s.emitAll xs).map some = ((xs.inits.zip xs).filter (!·.2.isOctave)).map
      fun (inner, x) => x.fragment? (before ++ inner) := by
  induction xs generalizing s before with
  | nil => rfl
  | cons x xs ih =>
    have hx := hWritten x List.mem_cons_self
    have hBefore : before.countP isOctaveStep ≤ 6 * 10 ^ 16 := by
      rw [List.countP_append] at hSteps
      omega
    have hRest := ih (h.advance hx (hNumbers x List.mem_cons_self) hBefore)
      (fun y hy => hWritten y (List.mem_cons_of_mem _ hy))
      (fun y hy => hNumbers y (List.mem_cons_of_mem _ hy)) (by simpa using hSteps)
    have hEmit := h.emit? hx hBefore
    have hOctave := Lexeme.isOctave_eq hx before
    have hInner : ∀ p : List Lexeme × Lexeme, p.2.fragment? (before ++ x :: p.1) =
        p.2.fragment? ((before ++ [x]) ++ p.1) := by simp
    rw [emitAll, List.map_append, hRest, List.inits_cons, List.zip_cons_cons, List.zip_map_left,
      hEmit]
    cases hFragment : x.fragment? before with
    | none =>
      rw [List.filter_cons_of_neg (by simp [hOctave, hFragment]), List.filter_map, List.map_map]
      simp [Function.comp_def, hInner]
    | some f =>
      rw [List.filter_cons_of_pos (by simp [hOctave, hFragment]), List.map_cons, List.filter_map,
        List.map_map]
      simp [Function.comp_def, hInner, hFragment]

/-- What was emitted stays as it is, whatever comes behind. -/
theorem emitAll_append (s : State) (xs ys : List Lexeme) :
    s.emitAll (xs ++ ys) = s.emitAll xs ++ (s.advanceAll xs).emitAll ys := by
  induction xs generalizing s with
  | nil => rfl
  | cons x xs ih => rw [List.cons_append, emitAll, emitAll, ih, List.append_assoc]; rfl

end State

namespace Voice

/-- The player emits one fragment for each lexeme but the octave tokens, in order.  It is the one
that the lexemes before it give in exact integers, and lexemes behind it have no part in it. -/
theorem emitAll_exact {voice : List Char}
    (hNumbers : ∀ x ∈ Lexeme.tokenize voice, ∀ n ∈ x.octaveNumber?, n ≤ 7 * 10 ^ 17)
    (hSteps : (Lexeme.tokenize voice).countP isOctaveStep ≤ 6 * 10 ^ 16) :
    (State.initial.emitAll (Lexeme.tokenize voice)).map some =
        (((Lexeme.tokenize voice).inits.zip (Lexeme.tokenize voice)).filter
          (!·.2.isOctave)).map (fun (before, x) => x.fragment? before) ∧
      ∀ (s : State) (before after : List Lexeme),
        s.emitAll before <+: s.emitAll (before ++ after) := by
  refine ⟨?_, ?_⟩
  · exact State.emitAll_eq_exact State.tracks_initial
      (fun _ => Lexeme.written_of_mem_tokenize) hNumbers hSteps
  · intro s before after
    rw [State.emitAll_append]
    exact List.prefix_append _ _

/-- A voice with the greatest octave that is allowed, negative octaves, inherited dots and each of
the note letters. -/
theorem emitAll_exact_greatest :
    (State.initial.emitAll (Lexeme.tokenize
      "c-l8.r o700000000000000000>b16o0<<c l4a.o2ad+e f8.g+&n041>e-".toList)).map some =
    [some (.note ⟨4, false⟩ "47".toList), some (.verbatim "l8.".toList), some (.rest ⟨8, true⟩),
      some (.note ⟨16, false⟩ "8400000000000000023".toList),
      some (.note ⟨8, true⟩ "-24".toList), some (.verbatim "l4".toList),
      some (.note ⟨4, true⟩ "-15".toList), some (.note ⟨4, false⟩ "35".toList),
      some (.note ⟨4, false⟩ "27".toList), some (.note ⟨4, false⟩ "28".toList),
      some (.note ⟨8, true⟩ "29".toList), some (.note ⟨4, false⟩ "32".toList), some .tie,
      some (.note ⟨4, false⟩ "041".toList), some (.note ⟨4, false⟩ "39".toList)] :=
  (emitAll_exact (by decide +kernel) (by decide +kernel)).1.trans (by decide +kernel)

end Voice

end Drumline
