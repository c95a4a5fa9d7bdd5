import Drumline.Proofs.Compaction
import Mathlib.Data.List.Forall2

/-! Playing a converted voice.  Compaction drops a macro only where the reader of the text has its
length already (`State.playKept_cons_length`), so that each word is played with the length which its
fragment had.  The main statement is `play_convert`, that the text without spaces is played as the
fragments of the voice sound, if the voice has no numbers and no negative notes. -/

namespace Drumline

open Token (Written)
open Lexeme (content contents contents_written)

/-- The lexeme makes a fragment. -/
def Lexeme.emits (x : Lexeme) : Bool :=
  match x.token with
  | .octaveSet _ | .octaveUp | .octaveDown | .stray => false
  | _ => true

/-- The fragments that do not come from a length macro.  They are those of the lexemes, one for each
lexeme that makes one. -/
def withoutMacros (xs : List Lexeme) (fs : List Fragment) : List Fragment :=
  (((xs.filter Lexeme.emits).zip fs).filter fun (x, _) => x.token.length?.isNone).map (·.2)

namespace Fragment

def isMacro : Fragment → Bool
  | verbatim text => (Length.parseMacro? text).isSome
  | _ => false

/-- A note below the lowest one. -/
def isNegative : Fragment → Bool
  | note _ number => number.head? == some '-'
  | _ => false

/-- What a fragment looks like that is read back as itself. -/
def IsPlayable : Fragment → Prop
  | verbatim text => IsCommandWord text
  | tie | rest _ => True
  | note _ number => Numeral.isNumeral number = true

theorem isMacro_silence (f : Fragment) : f.silence.isMacro = f.isMacro := by
  cases f with
  | note length number =>
    simp only [silence]
    split <;> rfl
  | _ => rfl

theorem isMacro_sounded (f : Fragment) : f.sounded.isMacro = f.isMacro := by
  cases f with
  | note length number =>
    obtain ⟨number', hSounded, -⟩ := exists_sounded_note length number
    rw [hSounded]
    rfl
  | _ => rfl

theorem filter_isMacro_sounded (fs : List Fragment) :
    (fs.map sounded).filter (!·.isMacro) = (fs.filter (!·.isMacro)).map sounded := by
  rw [List.filter_map]
  congr 1
  exact List.filter_congr fun f _ => by simp [isMacro_sounded]

theorem IsPlayable.sounded {f : Fragment} (h : f.IsPlayable) : f.sounded.IsPlayable := by
  cases f with
  | note length number =>
    obtain ⟨number', hSounded, hNumeral⟩ := exists_sounded_note length number
    rw [hSounded]
    exact hNumeral.trans h
  | _ => exact h

end Fragment

/-! ### Lexemes and their fragments -/

section Emitted

variable {s : State} {x : Lexeme} {xs : List Lexeme} {f : Fragment} {fs : List Fragment}

theorem Lexeme.emits_eq (s : State) (x : Lexeme) : x.emits = (s.emit? x).isSome := by
  obtain ⟨token, raw, span⟩ := x
  cases token with
  | note letter accidental duration =>
    simp only [Lexeme.emits, State.emit?]
    split <;> rfl
  | _ => rfl

theorem State.isMacro_of_emit? (hx : Written x.raw x.token) (h : s.emit? x = some f) :
    f.isMacro = x.token.length?.isSome := by
  obtain ⟨token, raw, span⟩ := x
  have hMacro : (Fragment.verbatim raw).isMacro = token.length?.isSome := by
    rw [Fragment.isMacro, hx.parseMacro?_eq]
  cases token with
  | octaveSet | octaveUp | octaveDown | stray => cases h
  | tie | rest | absolute =>
    cases h
    rfl
  | lengthMacro | volume | tempo | number =>
    cases h
    exact hMacro
  | note letter accidental duration =>
    simp only [emit?] at h
    split at h
    · cases h
      rfl
    · cases h
      exact hMacro

def SameMacros (xs : List Lexeme) (fs : List Fragment) : Prop :=
  List.Forall₂ (fun x f => f.isMacro = x.token.length?.isSome) (xs.filter Lexeme.emits) fs

theorem SameMacros.emitAll (h : ∀ x ∈ xs, Written x.raw x.token) (s : State) :
    SameMacros xs (s.emitAll xs) := by
  unfold SameMacros
  induction xs generalizing s with
  | nil => exact .nil
  | cons x xs ih =>
    have hRest := ih (fun y hy => h y (List.mem_cons_of_mem _ hy)) (s.advance x.token)
    have hEmits := Lexeme.emits_eq s x
    rw [State.emitAll]
    cases hEmit : s.emit? x with
    | none =>
      rw [List.filter_cons_of_neg (by simp [hEmits, hEmit])]
      exact hRest
    | some f =>
      rw [List.filter_cons_of_pos (by simp [hEmits, hEmit])]
      exact .cons (State.isMacro_of_emit? (h x (by simp)) hEmit) hRest

theorem SameMacros.resolveAfter (h : SameMacros xs fs) (afterTie : Bool) :
    SameMacros xs (Fragment.resolveAfter afterTie fs) := by
  unfold SameMacros at h ⊢
  generalize xs.filter Lexeme.emits = ys at h ⊢
  induction h generalizing afterTie with
  | nil => exact .nil
  | cons hMacro _ ih =>
    refine .cons ?_ (ih _)
    cases afterTie with
    | false => exact hMacro
    | true => exact (Fragment.isMacro_silence _).trans hMacro

theorem SameMacros.withoutMacros_eq (h : SameMacros xs fs) :
    withoutMacros xs fs = fs.filter (!·.isMacro) := by
  unfold SameMacros at h
  unfold withoutMacros
  generalize xs.filter Lexeme.emits = ys at h ⊢
  induction h with
  | nil => rfl
  | @cons x f ys fs hMacro _ ih =>
    rw [List.zip_cons_cons]
    cases hLength : x.token.length? <;> simp_all

theorem sameMacros_emitAll (s : State) (voice : List Char) :
    SameMacros (Lexeme.tokenize voice) (s.emitAll (Lexeme.tokenize voice)) :=
  .emitAll (fun _ => Lexeme.written_of_mem_tokenize) s

theorem sameMacros_fragments (voice : List Char) :
    SameMacros (Lexeme.tokenize voice) (Voice.fragments voice) :=
  (sameMacros_emitAll _ voice).resolveAfter false

/-- Each lexeme that makes a fragment has one. -/
theorem length_fragments (voice : List Char) : (Voice.fragments voice).length =
    ((Lexeme.tokenize voice).filter Lexeme.emits).length :=
  (sameMacros_fragments voice).length_eq.symm

end Emitted

/-! ### Playing words -/

namespace State

variable {s : State} {last : Option Length} {words : List (List Char)} {word : List Char}
  {token : Token} {length : Length}

def unplaced (c : Token × List Char) : Lexeme := ⟨c.1, c.2, ⟨0, 0⟩⟩

/-- The fragments of lexemes without their places, less the length macros. -/
def play (s : State) (cs : List (Token × List Char)) : List Fragment :=
  (s.emitAll (cs.map unplaced)).filter (!·.isMacro)

theorem emitAll_unplaced (s : State) (xs : List Lexeme) :
    s.emitAll ((xs.map content).map unplaced) = s.emitAll xs := by
  induction xs generalizing s with
  | nil => rfl
  | cons x xs ih =>
    rw [List.map_cons, List.map_cons, emitAll, emitAll, ← ih]
    rfl

theorem play_content (s : State) (xs : List Lexeme) :
    s.play (xs.map content) = (s.emitAll xs).filter (!·.isMacro) := by
  rw [play, emitAll_unplaced]

/-- What is played from the words that compaction leaves behind the length `last`. -/
def playKept (s : State) (last : Option Length) (words : List (List Char)) : List Fragment :=
  s.play ((dropRepeats Length.parseMacro? last words).flatMap contents)

/-- A macro sets the length, and where it is dropped it was set before. -/
theorem playKept_cons_length (h : Written word (.lengthMacro length))
    (hLast : last = some length → s.length = length) : s.playKept last (word :: words) =
      State.playKept { s with length } (some length) words := by
  have hLength : Length.parseMacro? word = some length := h.parseMacro?_eq
  by_cases hRepeat : last = some length
  · have hSame : s = { s with length } := by rw [← hLast hRepeat]
    rw [playKept, hRepeat, dropRepeats_cons_repeat hLength, playKept, ← hSame]
  · rw [playKept, dropRepeats_cons_new hLength hRepeat, List.flatMap_cons, contents_written h]
    simp [play, emitAll, unplaced, emit?, advance, Fragment.isMacro, hLength, playKept]

theorem playKept_cons {f : Fragment} (h : Written word token) (hNone : token.length? = none)
    (hEmit : s.emit? (unplaced (token, word)) = some f) (hAdvance : s.advance token = s) :
    s.playKept last (word :: words) = f :: s.playKept last words := by
  have hMacro : f.isMacro = false := by
    rw [isMacro_of_emit? h hEmit, unplaced, hNone, Option.isSome_none]
  rw [playKept, dropRepeats_cons_none (h.parseMacro?_eq.trans hNone), List.flatMap_cons,
    contents_written h, play, List.singleton_append, List.map_cons, emitAll, hEmit]
  simp [hMacro, unplaced, hAdvance, playKept, play]

/-- What is left of the words of fragments is played as these fragments. -/
theorem playKept_words {fs : List Fragment} (h : ∀ f ∈ fs, f.IsPlayable)
    (hLast : ∀ length ∈ last, s.length = length) :
    s.playKept last (fs.flatMap Fragment.words) = fs.filter (!·.isMacro) := by
  induction fs generalizing s last with
  | nil => rfl
  | cons f fs ih =>
    have hFragments : ∀ g ∈ fs, g.IsPlayable := fun g hg => h g (List.mem_cons_of_mem _ hg)
    -- a length is set before the fragment is played, by a macro that is kept or by one before it
    have hSet : ∀ length : Length, State.playKept { s with length } (some length)
        (fs.flatMap Fragment.words) = fs.filter (!·.isMacro) := by
      intro length
      exact ih hFragments fun _ hMem => Option.some.inj hMem
    rw [List.flatMap_cons]
    cases f with
    | verbatim text =>
      simp only [Fragment.words, List.singleton_append]
      cases h _ List.mem_cons_self with
      | lengthMacro hDigits dotted =>
        have hWritten := Written.lengthMacro hDigits dotted
        rw [playKept_cons_length hWritten (hLast _), hSet, List.filter_cons_of_neg]
        simp [Fragment.isMacro, hWritten.parseMacro?_eq, Token.length?]
      | volume hDigits =>
        rw [playKept_cons (.volume hDigits) rfl rfl rfl, ih hFragments hLast]
        rfl
      | tempo hDigits =>
        rw [playKept_cons (.tempo hDigits) rfl rfl rfl, ih hFragments hLast]
        rfl
    | tie =>
      simp only [Fragment.words, List.singleton_append]
      rw [playKept_cons .tie rfl rfl rfl, ih hFragments hLast]
      rfl
    | rest length =>
      have hRest : Written ['r'] _ := @Written.rest [] (by simp) false
      simp only [Fragment.words, List.cons_append, List.nil_append]
      rw [playKept_cons_length length.written_render (hLast _), playKept_cons hRest rfl rfl rfl,
        hSet]
      rfl
    | note length number =>
      have hNote : Written ('n' :: number) (.absolute number ⟨none, false⟩) := by
        simpa using Written.absolute (h _ List.mem_cons_self) false
      simp only [Fragment.words, List.cons_append, List.nil_append]
      rw [playKept_cons_length length.written_render (hLast _), playKept_cons hNote rfl rfl rfl,
        hSet]
      rfl

end State

/-! ### The fragments of a voice -/

namespace Voice

variable {voice : List Char}

theorem isPlayable_of_mem_fragments (hNumbers : ∀ x ∈ Lexeme.tokenize voice, x.token ≠ .number)
    (hNotes : ∀ f ∈ fragments voice, f.isNegative = false) {f : Fragment}
    (h : f ∈ fragments voice) : f.IsPlayable := by
  have hPlain := plain_of_mem_fragments h
  cases f with
  | verbatim text => exact isCommandWord_of_mem_fragments hNumbers h
  | tie | rest => trivial
  | note length number =>
    refine hPlain.resolve_right ?_
    rintro ⟨digits, -, rfl⟩
    exact absurd (hNotes _ h) (by simp [Fragment.isNegative])

/-- The text without spaces is played as the fragments of the voice sound, each with its length. -/
theorem play_convert (hNumbers : ∀ x ∈ Lexeme.tokenize voice, x.token ≠ .number)
    (hNotes : ∀ f ∈ fragments voice, f.isNegative = false) :
    withoutMacros (Lexeme.tokenize (convert voice))
        (State.initial.emitAll (Lexeme.tokenize (convert voice))) =
      (withoutMacros (Lexeme.tokenize voice) (fragments voice)).map Fragment.sounded := by
  have hPlayable : ∀ f ∈ (fragments voice).map Fragment.sounded, f.IsPlayable := by
    intro f hf
    obtain ⟨g, hg, rfl⟩ := List.mem_map.mp hf
    exact (isPlayable_of_mem_fragments hNumbers hNotes hg).sounded
  have hOutput : ∀ word ∈ dropRepeats Length.parseMacro? none (words voice),
      ∃ c tail, word = c :: tail ∧ Token.isInner c = false :=
    fun _ hWord => exists_cons_of_mem_words hNumbers (mem_of_mem_dropRepeats hWord)
  rw [(sameMacros_emitAll _ _).withoutMacros_eq, (sameMacros_fragments voice).withoutMacros_eq,
    ← Fragment.filter_isMacro_sounded, ← State.play_content]
  change State.initial.play (contents (convert voice)) = _
  rw [convert_eq, Lexeme.contents_flatten hOutput]
  exact State.playKept_words hPlayable nofun

/-- A voice with a tie, with zeros before its numbers and with macros that are dropped. -/
theorem play_convert_zeros : withoutMacros
    (Lexeme.tokenize (convert "o2l08a&>c n0035 v10l8r.".toList)) (State.initial.emitAll
      (Lexeme.tokenize (convert "o2l08a&>c n0035 v10l8r.".toList))) =
    [.note ⟨8, false⟩ ['6', '4'], .tie, .rest ⟨8, false⟩, .note ⟨8, false⟩ ['6', '4'],
      .verbatim ['v', '1', '0'], .rest ⟨8, true⟩] :=
  (play_convert (by decide +kernel) (by decide +kernel)).trans (by decide +kernel)

end Voice

end Drumline
