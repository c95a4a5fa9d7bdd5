import Drumline.Proofs.Voice.Reading
import Drumline.Proofs.Voice.Tie

/-! Converting a converted voice.  Each word of the first conversion is read as one lexeme and makes
one fragment, with the length that is in force; compaction drops the macro that this fragment puts
in front (`State.reconvert_words`).  The main statement is `convert_convert`, that a converted voice
is not changed by another conversion. -/

namespace Drumline

open Token (Written)
open Lexeme (contents contents_written)

/-! ### Sounds are final -/

namespace Fragment

theorem sounded_sounded (f : Fragment) : f.sounded.sounded = f.sounded := by
  cases f with
  | note length number =>
    by_cases hNumeral : Numeral.isNumeral number
    · cases hSound : Kit.sound? (Numeral.value number) with
      | none => simp [sounded, hNumeral, hSound]
      | some sound =>
        simp [sounded, hNumeral, hSound, Numeral.isNumeral_ofNat, Numeral.value_ofNat,
          Kit.sound?_sound hSound]
    · simp [sounded, hNumeral]
  | _ => rfl

/-- The fragment stays behind a tie as it is: it is no note that falls silent, and no macro that
may be dropped. -/
structure Steady (f : Fragment) : Prop where
  silence : f.silence = f
  isMacro : f.isMacro = false

theorem Steady.sounded {f : Fragment} (h : f.Steady) : f.sounded.Steady := by
  refine ⟨?_, (isMacro_sounded f).trans h.isMacro⟩
  cases f with
  | note length number =>
    obtain ⟨number', hSounded, hNumeral⟩ := exists_sounded_note length number
    have hSilence := h.silence
    rw [hSounded]
    by_cases h : Numeral.isNumeral number <;> simp_all [Fragment.silence]
  | _ => rfl

end Fragment

/-! ### Reading words back -/

namespace State

variable {s : State} {last : Option Length} {afterTie : Bool} {words : List (List Char)}
  {word : List Char} {token : Token} {f : Fragment}

/-- The words that are left of the fragments which words are read as, behind the length `last`. -/
def reconvert (s : State) (last : Option Length) (afterTie : Bool) (words : List (List Char)) :
    List (List Char) :=
  dropRepeats Length.parseMacro? last
    (((Fragment.resolveAfter afterTie (s.emitAll ((words.flatMap contents).map unplaced))).map
      Fragment.sounded).flatMap Fragment.words)

theorem reconvert_cons (h : Written word token) (hEmit : s.emit? (unplaced (token, word)) = some f)
    (hSounded : f.sounded = f) (hTie : afterTie = true → f.silence = f) :
    s.reconvert last afterTie (word :: words) = dropRepeats Length.parseMacro? last f.words ++
      (s.advance token).reconvert (f.length? <|> last) (f == .tie) words := by
  have hFirst : (if afterTie then f.silence else f) = f := by
    cases afterTie with
    | false => rfl
    | true => exact hTie rfl
  rw [reconvert, List.flatMap_cons, contents_written h, List.singleton_append, List.map_cons,
    emitAll, hEmit, Option.toList_some, List.singleton_append, Fragment.resolveAfter, hFirst,
    List.map_cons, hSounded, List.flatMap_cons, dropRepeats_append, Fragment.lastLength_words]
  rfl

/-- A macro is kept or dropped as it was before. -/
theorem reconvert_macro {length : Length} (h : Written word (.lengthMacro length))
    (hLast : ∀ length ∈ last, s.length = length) :
    s.reconvert last afterTie (dropRepeats Length.parseMacro? last [word] ++ words) =
      dropRepeats Length.parseMacro? last [word] ++ State.reconvert { s with length }
        (some length) (afterTie && last == some length) words := by
  have hLength : Length.parseMacro? word = some length := h.parseMacro?_eq
  by_cases hRepeat : last = some length
  · have hState : { s with length } = s := by rw [← hLast length hRepeat]
    rw [hRepeat, dropRepeats_cons_repeat hLength, hState]
    simp [dropRepeats]
  · have hKept : dropRepeats Length.parseMacro? last [word] = [word] :=
      dropRepeats_cons_new hLength hRepeat
    have hFragment : (Fragment.verbatim word).length? = some length := hLength
    have hNotTie : (Fragment.verbatim word == .tie) = false := rfl
    have hChanged : (last == some length) = false := beq_eq_false_iff_ne.mpr hRepeat
    rw [hKept, List.singleton_append, reconvert_cons (f := .verbatim word) h rfl rfl fun _ => rfl,
      hFragment, hNotTie, hChanged, Bool.and_false, Fragment.words, hKept]
    rfl

theorem reconvert_copied (h : Written word token) (hNone : token.length? = none)
    (hWords : f.words = [word]) (hLength : f.length? = none)
    (hEmit : s.emit? (unplaced (token, word)) = some f) (hAdvance : s.advance token = s)
    (hSounded : f.sounded = f) (hTie : afterTie = true → f.silence = f) :
    s.reconvert last afterTie (dropRepeats Length.parseMacro? last f.words ++ words) =
      dropRepeats Length.parseMacro? last f.words ++
        State.reconvert { s with length := f.length?.getD s.length } (f.length? <|> last)
          (f == .tie) words := by
  have hKept : dropRepeats Length.parseMacro? last f.words = [word] := by
    rw [hWords]
    exact dropRepeats_cons_none (h.parseMacro?_eq.trans hNone)
  rw [hKept, List.singleton_append, reconvert_cons h hEmit hSounded hTie, hAdvance, hLength, hKept]
  rfl

/-- A note or rest is read back with its length, whether its macro was kept or dropped. -/
theorem reconvert_sounding {length : Length} (h : Written word token)
    (hNone : token.length? = none) (hWords : f.words = [length.render, word])
    (hLength : f.length? = some length)
    (hEmit : ({ s with length } : State).emit? (unplaced (token, word)) = some f)
    (hAdvance : ({ s with length } : State).advance token = { s with length })
    (hSounded : f.sounded = f) (hTie : afterTie = true → f.silence = f)
    (hLast : ∀ length ∈ last, s.length = length) :
    s.reconvert last afterTie (dropRepeats Length.parseMacro? last f.words ++ words) =
      dropRepeats Length.parseMacro? last f.words ++
        State.reconvert { s with length := f.length?.getD s.length } (f.length? <|> last)
          (f == .tie) words := by
  have hMacro : Length.parseMacro? length.render = some length :=
    length.written_render.parseMacro?_eq
  have hWord : ∀ last, dropRepeats Length.parseMacro? last [word] = [word] := fun last =>
    dropRepeats_cons_none (h.parseMacro?_eq.trans hNone)
  have hSplit : dropRepeats Length.parseMacro? last f.words =
      dropRepeats Length.parseMacro? last [length.render] ++ [word] := by
    rw [hWords, ← List.singleton_append, dropRepeats_append, hWord]
  have hAgain : dropRepeats Length.parseMacro? (some length) f.words = [word] := by
    rw [hWords, dropRepeats_cons_repeat hMacro, hWord]
  rw [hSplit, List.append_assoc, List.append_assoc, List.singleton_append,
    reconvert_macro length.written_render hLast,
    reconvert_cons h hEmit hSounded fun hTied => hTie (Bool.and_eq_true_iff.mp hTied).1,
    hAdvance, hLength, hAgain]
  rfl

/-- What is left of the words of a fragment is read back and is left again. -/
theorem reconvert_words (h : f.IsPlayable) (hSounded : f.sounded = f)
    (hTie : afterTie = true → f.Steady) (hLast : ∀ length ∈ last, s.length = length) :
    s.reconvert last afterTie (dropRepeats Length.parseMacro? last f.words ++ words) =
      dropRepeats Length.parseMacro? last f.words ++
        State.reconvert { s with length := f.length?.getD s.length } (f.length? <|> last)
          (f == .tie) words := by
  cases f with
  | verbatim text =>
    cases h with
    | lengthMacro hDigits dotted =>
      have hWritten := Written.lengthMacro hDigits dotted
      have hNotTie : afterTie = false := by
        rw [← Bool.not_eq_true]
        intro hTrue
        have hMacro := (hTie hTrue).isMacro
        simp [Fragment.isMacro, hWritten.parseMacro?_eq, Token.length?] at hMacro
      rw [Fragment.words, reconvert_macro hWritten hLast, hNotTie, Fragment.length?,
        hWritten.parseMacro?_eq]
      rfl
    | volume hDigits =>
      exact reconvert_copied (.volume hDigits) rfl rfl rfl rfl rfl rfl fun _ => rfl
    | tempo hDigits =>
      exact reconvert_copied (.tempo hDigits) rfl rfl rfl rfl rfl rfl fun _ => rfl
  | tie => exact reconvert_copied .tie rfl rfl rfl rfl rfl rfl fun _ => rfl
  | rest length =>
    have hRest : Written ['r'] _ := @Written.rest [] (by simp) false
    exact reconvert_sounding hRest rfl rfl rfl rfl rfl rfl (fun _ => rfl) hLast
  | note length number =>
    have hNote : Written ('n' :: number) (.absolute number ⟨none, false⟩) := by
      simpa using Written.absolute h false
    exact reconvert_sounding hNote rfl rfl rfl rfl rfl hSounded
      (fun hTied => (hTie hTied).silence) hLast

/-- What is left of the words of fragments is read back and is left again. -/
theorem reconvert_dropRepeats {fs : List Fragment} (h : ∀ f ∈ fs, f.IsPlayable)
    (hSounded : ∀ f ∈ fs, f.sounded = f) (hTies : fs.IsChain fun f g => f = .tie → g.Steady)
    (hTie : afterTie = true → ∀ f ∈ fs.head?, f.Steady)
    (hLast : ∀ length ∈ last, s.length = length) :
    s.reconvert last afterTie
        (dropRepeats Length.parseMacro? last (fs.flatMap Fragment.words)) =
      dropRepeats Length.parseMacro? last (fs.flatMap Fragment.words) := by
  induction fs generalizing s last afterTie with
  | nil => rfl
  | cons f fs ih =>
    have hNext := List.isChain_cons.mp hTies
    have hState : ∀ length ∈ (f.length? <|> last), f.length?.getD s.length = length := by
      cases hLength : f.length? with
      | none => simpa [hLength] using hLast
      | some length => simp
    rw [List.flatMap_cons, dropRepeats_append, Fragment.lastLength_words,
      reconvert_words (h f (by simp)) (hSounded f (by simp)) (fun hTied => hTie hTied f rfl) hLast,
      ih (fun g hg => h g (List.mem_cons_of_mem _ hg))
        (fun g hg => hSounded g (List.mem_cons_of_mem _ hg)) hNext.2 ?_ hState]
    intro hTied g hg
    exact hNext.1 g hg (by simpa using hTied)

end State

/-! ### The converted voice -/

namespace Voice

variable {voice : List Char}

/-- Behind a tie there is no note that could fall silent, nor a macro. -/
theorem isChain_steady (h : (fragments voice).IsChain fun f g => f = .tie → g.isMacro = false) :
    (fragments voice).IsChain fun f g => f = .tie → g.Steady := by
  have hSilence := Fragment.isChain_resolveAfter false
    (State.initial.emitAll (Lexeme.tokenize voice))
  rw [List.isChain_iff_forall_rel_of_append_cons_cons] at h hSilence ⊢
  intro f g before after hFragments hTie
  exact ⟨hSilence hFragments hTie, h hFragments hTie⟩

/-- A converted voice stays as it is when it is converted again. -/
theorem convert_convert (hNumbers : ∀ x ∈ Lexeme.tokenize voice, x.token ≠ .number)
    (hNotes : ∀ f ∈ fragments voice, f.isNegative = false)
    (hTies : (fragments voice).IsChain fun f g => f = .tie → g.isMacro = false) :
    convert (convert voice) = convert voice := by
  have hPlayable : ∀ f ∈ (fragments voice).map Fragment.sounded, f.IsPlayable := by
    intro f hf
    obtain ⟨g, hg, rfl⟩ := List.mem_map.mp hf
    exact (isPlayable_of_mem_fragments hNumbers hNotes hg).sounded
  have hSounded : ∀ f ∈ (fragments voice).map Fragment.sounded, f.sounded = f := by
    intro f hf
    obtain ⟨g, -, rfl⟩ := List.mem_map.mp hf
    exact g.sounded_sounded
  have hSteady : ((fragments voice).map Fragment.sounded).IsChain fun f g =>
      f = .tie → g.Steady := by
    rw [List.isChain_map]
    refine (isChain_steady hTies).imp fun f g h hTie => ?_
    exact (h (Fragment.sounded_eq_tie_iff.mp hTie)).sounded
  have hOutput : ∀ word ∈ dropRepeats Length.parseMacro? none (words voice),
      ∃ c tail, word = c :: tail ∧ Token.isInner c = false :=
    fun _ hWord => exists_cons_of_mem_words hNumbers (mem_of_mem_dropRepeats hWord)
  have hRead : dropRepeats Length.parseMacro? none (words (convert voice)) =
      State.initial.reconvert none false (dropRepeats Length.parseMacro? none (words voice)) := by
    rw [State.reconvert, ← Lexeme.contents_flatten hOutput, ← convert_eq, words, fragments,
      ← State.emitAll_unplaced]
    rfl
  have hAgain : State.initial.reconvert none false
      (dropRepeats Length.parseMacro? none (words voice)) =
        dropRepeats Length.parseMacro? none (words voice) := by
    rw [words]
    refine State.reconvert_dropRepeats hPlayable hSounded hSteady ?_ ?_
    · intro hTied
      cases hTied
    · intro length hLast
      cases hLast
  rw [convert_eq (convert voice), hRead, hAgain, ← convert_eq]

/-- A voice with a tie, a repeated macro, a saturated length and zeros before its numbers. -/
theorem convert_convert_zeros :
    convert (convert "o2l08a&>c n0035n0064 l8v10l99999999999r.".toList) =
      "l08n64&rn64n0064v10l99999999999l4294967295.r".toList :=
  (convert_convert (by decide +kernel) (by decide +kernel) (by decide +kernel)).trans
    (by decide +kernel)

end Voice

end Drumline
