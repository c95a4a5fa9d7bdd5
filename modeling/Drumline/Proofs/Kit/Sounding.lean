import Drumline.Proofs.Command
import Drumline.Proofs.Fragment.Words
import Mathlib.Data.List.Basic

/-! The sounds of a converted voice.  The kit is applied to the text of a voice; `Fragment.sounded`
applies it to a note, and `Fragment.Sounds` says by the entries of the kit alone what becomes of a
fragment.  The main statement is `spaced_eq_join_sounded`, that the text is that of the notes with
their sounds. -/

namespace Drumline

namespace Fragment

/-- The fragment with the sound in place of a note number that has one.  The number of the note is
the exact value of its digits, however many there are. -/
def sounded : Fragment → Fragment
  | note length number =>
    if Numeral.isNumeral number then
      match Kit.sound? (Numeral.value number) with
      | some sound => note length (Numeral.ofNat sound)
      | none => note length number
    else note length number
  | other => other

/-- The second fragment is the first one as it sounds: a note whose number is a numeral with a value
that the kit lists gets the sound listed there, and all else stays.  The value is exact. -/
inductive Sounds : Fragment → Fragment → Prop
  | verbatim (text : List Char) : Sounds (.verbatim text) (.verbatim text)
  | tie : Sounds .tie .tie
  | rest (length : Length) : Sounds (.rest length) (.rest length)
  | listed {number : List Char} {sound : Nat} (length : Length)
      (hNumeral : Numeral.isNumeral number = true)
      (hSound : (Numeral.value number, sound) ∈ Kit.entries) :
      Sounds (.note length number) (.note length (Numeral.ofNat sound))
  | unlisted {number : List Char} (length : Length)
      (hSound : Numeral.isNumeral number = true →
        ∀ sound, (Numeral.value number, sound) ∉ Kit.entries) :
      Sounds (.note length number) (.note length number)

end Fragment

namespace Kit

theorem sound?_eq_none_of_lt {note : Nat} (h : 47 < note) : sound? note = none := by
  have hKeys : ∀ entry ∈ entries, entry.1 ≤ 47 := by decide
  refine List.lookup_eq_none_iff.mpr fun entry hMem => ?_
  have := hKeys entry hMem
  exact bne_iff_ne.mpr (by omega)

/-- A number beyond a limit above the last note has no sound, as the limit has none. -/
theorem sound?_min {limit : Nat} (h : 47 < limit) (note : Nat) :
    sound? (min note limit) = sound? note := by
  by_cases hLe : note ≤ limit
  · rw [Nat.min_eq_left hLe]
  · rw [sound?_eq_none_of_lt (by omega), sound?_eq_none_of_lt (by omega)]

theorem sound?_readWord (digits : List Char) :
    sound? (Numeral.readWord digits) = sound? (Numeral.value digits) := by
  rw [Numeral.readWord, Numeral.readUpTo_eq_min, sound?_min (by decide)]

theorem mem_entries_iff {note sound : Nat} :
    (note, sound) ∈ entries ↔ sound? note = some sound := by
  have hFirst : ∀ entry ∈ entries, sound? entry.1 = some entry.2 := by decide
  constructor
  · exact hFirst (note, sound)
  · intro h
    obtain ⟨before, after, hEntries, -⟩ := List.lookup_eq_some_iff.mp h
    rw [hEntries]
    simp

theorem sound?_eq_none_iff {note : Nat} :
    sound? note = none ↔ ∀ sound, (note, sound) ∉ entries := by
  simp only [mem_entries_iff, Option.eq_none_iff_forall_ne_some, ne_eq]

/-- No sound of the kit is a note number that has a sound. -/
theorem sound?_sound {note sound : Nat} (h : sound? note = some sound) :
    sound? sound = none := by
  have hSounds : ∀ entry ∈ entries, sound? entry.2 = none := by decide
  exact hSounds (note, sound) (mem_entries_iff.mpr h)

theorem remap_append_cons {c : Char} (hNote : c ≠ 'n') (hDigit : c.isDigit = false)
    (before after : List Char) : remap (before ++ c :: after) = remap before ++ c :: remap after :=
  replaceCommands_append_cons (by simpa using hNote) hDigit before after

theorem remap_eq_self {text : List Char} (h : 'n' ∉ text) : remap text = text := by
  refine replaceCommands_eq_self fun c hc => ?_
  simp only [beq_eq_false_iff_ne]
  rintro rfl
  exact h hc

theorem remap_intercalate (words : List (List Char)) :
    remap (List.intercalate [' '] words) = List.intercalate [' '] (words.map remap) := by
  induction words with
  | nil => exact remap_eq_self (by simp)
  | cons word words ih =>
    cases words with
    | nil => simp
    | cons next words =>
      rw [List.intercalate_cons_cons, List.append_assoc, List.singleton_append,
        remap_append_cons (by decide) (by decide), ih]
      simp [List.intercalate_cons_cons]

theorem remap_note {digits : List Char} (h : Numeral.isNumeral digits = true) :
    remap ('n' :: digits) = sounding 'n' digits :=
  replaceCommands_command (by decide) h

theorem remap_negative {digits : List Char} (h : Numeral.isNumeral digits = true) :
    remap ('n' :: '-' :: digits) = 'n' :: '-' :: digits := by
  have hSplit := remap_append_cons (c := '-') (by decide) (by decide) ['n'] digits
  rw [remap_eq_self (Numeral.not_mem h (by decide))] at hSplit
  simpa [remap, replaceCommands_singleton] using hSplit

end Kit

namespace Fragment

theorem sounds_sounded (f : Fragment) : f.Sounds f.sounded := by
  cases f with
  | verbatim text => exact .verbatim text
  | tie => exact .tie
  | rest length => exact .rest length
  | note length number =>
    rw [sounded]
    by_cases hNumeral : Numeral.isNumeral number = true
    · rw [if_pos hNumeral]
      split
      · next sound hSound => exact .listed length hNumeral (Kit.mem_entries_iff.mpr hSound)
      · next hSound => exact .unlisted length fun _ => Kit.sound?_eq_none_iff.mp hSound
    · rw [if_neg hNumeral]
      exact .unlisted length fun h => absurd h hNumeral

/-- A fragment sounds in one way only. -/
theorem sounds_iff {f g : Fragment} : f.Sounds g ↔ g = f.sounded := by
  constructor
  · intro h
    cases h with
    | verbatim | tie | rest => rfl
    | listed length hNumeral hSound => simp [sounded, hNumeral, Kit.mem_entries_iff.mp hSound]
    | @unlisted number length hSound =>
      rw [sounded]
      by_cases hNumeral : Numeral.isNumeral number = true
      · rw [if_pos hNumeral, Kit.sound?_eq_none_iff.mpr (hSound hNumeral)]
      · rw [if_neg hNumeral]
  · rintro rfl
    exact sounds_sounded f

/-- The words of a fragment with their sounds are the words of the sounding fragment. -/
theorem Plain.map_remap_words {f : Fragment} (h : f.Plain) :
    f.words.map Kit.remap = f.sounded.words := by
  have hCopied : ∀ {text : List Char}, IsCommandWord text ∨ IsNumberWord text →
      Kit.remap text = text := fun h =>
    Kit.remap_eq_self (not_mem_of_copied h (by decide) (by decide))
  have hRender : ∀ length : Length, Kit.remap length.render = length.render := fun length =>
    hCopied (.inl length.isCommandWord_render)
  cases f with
  | verbatim text => simp [words, sounded, hCopied h]
  | tie =>
    have hTie : Kit.remap ['&'] = ['&'] := Kit.remap_eq_self (by decide)
    simp [words, sounded, hTie]
  | rest length =>
    have hRest : Kit.remap ['r'] = ['r'] := Kit.remap_eq_self (by decide)
    simp [words, sounded, hRender, hRest]
  | note length number =>
    rcases h with hNumeral | ⟨digits, hDigits, rfl⟩
    · simp only [words, List.map_cons, List.map_nil, hRender, Kit.remap_note hNumeral,
        Kit.sounding, Kit.sound?_readWord, sounded, hNumeral, if_true]
      cases Kit.sound? (Numeral.value number) <;> rfl
    · simp [words, sounded, hRender, Kit.remap_negative hDigits, Numeral.isNumeral_negative]

theorem exists_sounded_note (length : Length) (number : List Char) :
    ∃ number', (note length number).sounded = note length number' ∧
      Numeral.isNumeral number' = Numeral.isNumeral number := by
  simp only [sounded]
  split
  · next h =>
    cases Kit.sound? (Numeral.value number) with
    | some sound => exact ⟨_, rfl, (Numeral.isNumeral_ofNat sound).trans h.symm⟩
    | none => exact ⟨_, rfl, rfl⟩
  · exact ⟨_, rfl, rfl⟩

theorem remap_join {fs : List Fragment} (h : ∀ f ∈ fs, f.Plain) :
    Kit.remap (join fs) = join (fs.map sounded) := by
  rw [join_eq_intercalate, join_eq_intercalate, Kit.remap_intercalate, List.map_flatMap,
    List.flatMap_map]
  congr 1
  exact List.flatMap_congr fun f hf => (h f hf).map_remap_words

theorem Plain.sounded {f : Fragment} (h : f.Plain) : f.sounded.Plain := by
  cases f with
  | note length number =>
    simp only [Fragment.sounded]
    split
    · cases Kit.sound? (Numeral.value number) with
      | some sound => exact Or.inl (Numeral.isNumeral_ofNat sound)
      | none => exact h
    · exact h
  | _ => exact h

end Fragment

namespace Voice

/-- The words of the fragments of a voice with their sounds. -/
def words (voice : List Char) : List (List Char) :=
  ((fragments voice).map Fragment.sounded).flatMap Fragment.words

theorem spaced_eq_intercalate (voice : List Char) :
    spaced voice = List.intercalate [' '] (words voice) := by
  rw [spaced, Fragment.remap_join fun _ => plain_of_mem_fragments, Fragment.join_eq_intercalate,
    words]

theorem plain_of_mem_sounded {voice : List Char} {f : Fragment}
    (h : f ∈ (fragments voice).map Fragment.sounded) : f.Plain := by
  obtain ⟨g, hg, rfl⟩ := List.mem_map.mp h
  exact (plain_of_mem_fragments hg).sounded

theorem isWord_of_mem_words {voice word : List Char} (h : word ∈ words voice) : IsWord word := by
  obtain ⟨f, hf, hWord⟩ := List.mem_flatMap.mp h
  exact (plain_of_mem_sounded hf).isWord word hWord

/-- The words of a voice without numbers start with a character that is in no tail. -/
theorem exists_cons_of_mem_words {voice word : List Char}
    (hNumbers : ∀ x ∈ Lexeme.tokenize voice, x.token ≠ .number) (h : word ∈ words voice) :
    ∃ c tail, word = c :: tail ∧ Token.isInner c = false := by
  obtain ⟨f, hf, hWord⟩ := List.mem_flatMap.mp h
  obtain ⟨g, hg, rfl⟩ := List.mem_map.mp hf
  cases g with
  | verbatim text =>
    obtain rfl := List.mem_singleton.mp hWord
    cases isCommandWord_of_mem_fragments hNumbers hg <;> exact ⟨_, _, rfl, by decide⟩
  | tie =>
    obtain rfl := List.mem_singleton.mp hWord
    exact ⟨_, _, rfl, by decide⟩
  | rest length =>
    rcases List.mem_pair.mp hWord with rfl | rfl <;> exact ⟨_, _, rfl, by decide⟩
  | note length number =>
    obtain ⟨number', hSounded, -⟩ := Fragment.exists_sounded_note length number
    rw [hSounded] at hWord
    rcases List.mem_pair.mp hWord with rfl | rfl <;> exact ⟨_, _, rfl, by decide⟩

/-- Replacing the note numbers in the text of a voice replaces the number of every note once, by the
sound that the kit lists for it, and changes nothing else. -/
theorem spaced_eq_join_sounded (voice : List Char) :
    spaced voice = Fragment.join ((fragments voice).map Fragment.sounded) ∧
      ∀ f g : Fragment, f.Sounds g ↔ g = f.sounded :=
  ⟨Fragment.remap_join fun _ => plain_of_mem_fragments, fun _ _ => Fragment.sounds_iff⟩

end Voice

end Drumline
