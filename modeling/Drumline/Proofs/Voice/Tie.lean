import Drumline.Proofs.Fragment.Ties
import Drumline.Proofs.Voice.SelfDelimiting

/-! Ties in a converted voice.  A note that stands directly behind a tie falls silent, but a macro
between them keeps the note, and compaction may drop this macro.  The main statement is
`isChain_silent_iff`, which says when a converted voice has a tie with a note behind it. -/

namespace Drumline

open Token (Written)
open Lexeme (contents)

/-- The second token is not a note behind a tie. -/
def Silent (x y : Token) : Prop := x = .tie → y.isAbsolute = false

instance : DecidableRel Silent := fun x y =>
  inferInstanceAs (Decidable (x = .tie → y.isAbsolute = false))

namespace Lexeme

def tokens (text : List Char) : List Token := (contents text).map (·.1)

theorem mem_of_mem_scanFrom {start : Nat} {text : List Char} {x : Lexeme} {c : Char}
    (h : x ∈ scanFrom start text) (hc : c ∈ x.raw) : c ∈ text := by
  induction start, text using scanFrom.induct with
  | case1 start => simp [scanFrom] at h
  | case2 start d text hGap ih =>
    rw [scanFrom_gap hGap] at h
    exact List.mem_cons_of_mem _ (ih h)
  | case3 start d text hGap stop ih =>
    rw [scanFrom_cons (by simpa using hGap), List.mem_cons] at h
    rw [← head_append d text, ← List.cons_append, List.mem_append]
    rcases h with rfl | h
    · exact .inl hc
    · exact .inr (ih h)

theorem eq_of_written_tie {text : List Char} (h : Written text .tie) : text = ['&'] := by
  cases h
  rfl

theorem silent_of_mem_tokens {text : List Char} (h : '&' ∉ text) :
    ∀ x ∈ tokens text, ∀ y, Silent x y := by
  rintro token hToken - rfl
  obtain ⟨p, hp, hTie⟩ := List.mem_map.mp hToken
  obtain ⟨x, hx, rfl⟩ := List.mem_map.mp hp
  have hRaw := written_of_mem_tokenize hx
  rw [show x.token = .tie from hTie] at hRaw
  refine absurd (mem_of_mem_scanFrom (List.mem_filter.mp hx).1 ?_) h
  simp [eq_of_written_tie hRaw]

theorem tokens_append_tie (before after : List Char) :
    tokens (before ++ '&' :: after) = tokens before ++ .tie :: tokens after := by
  have hEnds : Ends ['&'] after := (ends_singleton_iff rfl fun _ => rfl).mpr fun _ _ => rfl
  have hTie : contents ('&' :: after) = (.tie, ['&']) :: contents after :=
    contents_written_append .tie hEnds
  rw [tokens, contents_append_cons (by decide), List.map_append, hTie]
  rfl

end Lexeme

theorem IsWord.exists_tokens {word : List Char} (h : IsWord word) (rest : List Char) :
    ∃ token more, Lexeme.tokens (word ++ rest) = token :: more ∧
      token.isAbsolute = isNoteWord word := by
  obtain ⟨token, core, hWord⟩ := h.exists_readsAs
  rw [Lexeme.tokens, hWord.contents, ← hWord.isAbsolute]
  by_cases hEnds : Lexeme.Ends core rest
  · rw [Lexeme.contents_written_append hWord.written hEnds]
    exact ⟨_, _, rfl, rfl⟩
  · obtain ⟨token', text', more, hContents, -, hWritten, hHead⟩ :=
      Lexeme.exists_contents_written_append hWord.written hEnds
    rw [hContents]
    refine ⟨_, _, rfl, ?_⟩
    rw [hWritten.isAbsolute_eq, hHead, hWord.written.isAbsolute_eq]

def SilentWord (word next : List Char) : Prop := word = ['&'] → isNoteWord next = false

theorem isChain_append_iff {α : Type} {r : α → α → Prop} {xs ys : List α}
    (h : ∀ x ∈ xs, ∀ y, r x y) : (xs ++ ys).IsChain r ↔ ys.IsChain r := by
  induction xs with
  | nil => rfl
  | cons x xs ih =>
    have hFirst : ∀ y, r x y := h x (by simp)
    rw [List.cons_append, List.isChain_cons, ih fun y hy => h y (List.mem_cons_of_mem _ hy)]
    simp [hFirst]

theorem head_tokens_flatten_iff {words : List (List Char)} (h : ∀ word ∈ words, IsWord word) :
    (∀ token ∈ (Lexeme.tokens words.flatten).head?, Silent .tie token) ↔
      ∀ word ∈ words.head?, SilentWord ['&'] word := by
  cases words with
  | nil => simp [Lexeme.tokens]
  | cons word words =>
    obtain ⟨token, more, hTokens, hNote⟩ := (h word (by simp)).exists_tokens words.flatten
    simp [hTokens, Silent, SilentWord, hNote]

/-- Words without spaces are read with a note behind a tie exactly if they have one.  The text
before the words has no tie. -/
theorem isChain_tokens_flatten_iff {words : List (List Char)} (h : ∀ word ∈ words, IsWord word)
    {before : List Char} (hBefore : '&' ∉ before) :
    (Lexeme.tokens (before ++ words.flatten)).IsChain Silent ↔ words.IsChain SilentWord := by
  induction words generalizing before with
  | nil =>
    rw [List.flatten_nil, List.append_nil, ← List.append_nil (Lexeme.tokens before),
      isChain_append_iff (Lexeme.silent_of_mem_tokens hBefore)]
    simp
  | cons word words ih =>
    have hWords : ∀ next ∈ words, IsWord next := fun next hNext =>
      h next (List.mem_cons_of_mem _ hNext)
    rcases (h word (by simp)).eq_tie_or_not_mem with rfl | hWord
    · have hRest : (Lexeme.tokens ([] ++ words.flatten)).IsChain Silent ↔ _ :=
        ih hWords (by simp)
      rw [List.nil_append] at hRest
      rw [List.flatten_cons, List.singleton_append, Lexeme.tokens_append_tie,
        isChain_append_iff (Lexeme.silent_of_mem_tokens hBefore), List.isChain_cons,
        List.isChain_cons, head_tokens_flatten_iff hWords, hRest]
    · -- words between two ties may be read as one, so this one is kept as text
      have hFirst : ∀ next, SilentWord word next := by
        rintro next rfl
        exact absurd hWord (by simp)
      rw [List.flatten_cons, ← List.append_assoc, ih hWords (by simp [hBefore, hWord]),
        List.isChain_cons]
      simp [hFirst]

/-! ### Ties in fragments -/

namespace Fragment

/-- The length that a fragment sets. -/
def length? : Fragment → Option Length
  | verbatim text => Length.parseMacro? text
  | tie => none
  | rest length | note length _ => some length

/-- A note with a numeral, of the given length, behind any number of macros of this length. -/
def Repeats (length : Length) : List Fragment → Prop
  | verbatim text :: fs => Length.parseMacro? text = some length ∧ Repeats length fs
  | note length' number :: _ => length' = length ∧ Numeral.isNumeral number = true
  | _ => False

/-- Behind a tie there are macros and a note, all of the length that was set before the tie. -/
def Exposed (last : Option Length) : List Fragment → Prop
  | [] => False
  | f :: fs => (f = tie ∧ ∃ length, last = some length ∧ Repeats length fs) ∨
      Exposed (f.length? <|> last) fs

theorem Plain.eq_tie_of_mem_words {f : Fragment} (h : f.Plain) (hMem : ['&'] ∈ f.words) :
    f = tie := by
  cases f with
  | verbatim text =>
    have hText : '&' ∉ text := not_mem_of_copied h (by decide) (by decide)
    rw [← List.mem_singleton.mp hMem] at hText
    simp at hText
  | tie => rfl
  | rest | note => simp [words, Length.render_eq] at hMem

theorem dropRepeats_render (last : Option Length) (length : Length) (words : List (List Char)) :
    dropRepeats Length.parseMacro? last (length.render :: words) =
      if last = some length then dropRepeats Length.parseMacro? (some length) words
      else length.render :: dropRepeats Length.parseMacro? (some length) words := by
  have hLength : Length.parseMacro? length.render = some length :=
    length.written_render.parseMacro?_eq
  split
  · next h => rw [h, dropRepeats_cons_repeat hLength]
  · next h => rw [dropRepeats_cons_new hLength h]

theorem lastLength_words (f : Fragment) (last : Option Length) :
    lastLength Length.parseMacro? last f.words = (f.length? <|> last) := by
  cases f with
  | verbatim | tie => rfl
  | rest length | note length =>
    have hLength : Length.parseMacro? length.render = some length :=
      length.written_render.parseMacro?_eq
    simp [lastLength, words, hLength, length?, Length.parseMacro?_eq_none]

theorem Plain.isNoteWord_eq_false {text : List Char} (h : (verbatim text).Plain) :
    isNoteWord text = false := by
  rcases h with h | h
  · cases h <;> rfl
  · cases h with
    | digits h dotted =>
      obtain ⟨d, ds, rfl, hDigit, -⟩ := Numeral.exists_cons h
      exact isNoteWord_cons (ne_of_isDigit hDigit (by decide)) _
    | dot => rfl

/-- The first word that is left is a note exactly if there are macros and a note of the length that
was set. -/
theorem head_dropRepeats_iff {last : Option Length} {fs : List Fragment} (h : ∀ f ∈ fs, f.Plain) :
    (∀ word ∈ (dropRepeats Length.parseMacro? last (fs.flatMap words)).head?,
      isNoteWord word = false) ↔ ¬∃ length, last = some length ∧ Repeats length fs := by
  induction fs with
  | nil => simp [dropRepeats, Repeats]
  | cons f fs ih =>
    rw [List.flatMap_cons]
    cases f with
    | verbatim text =>
      rw [words, List.singleton_append]
      by_cases hMacro : ∃ length, last = some length ∧ Length.parseMacro? text = some length
      · obtain ⟨length, rfl, hMacro⟩ := hMacro
        rw [dropRepeats_cons_repeat hMacro, ih fun g hg => h g (List.mem_cons_of_mem _ hg)]
        simp [Repeats, hMacro]
      · have hNote := (h _ List.mem_cons_self).isNoteWord_eq_false
        rw [dropRepeats_cons_kept fun length hText hLast => hMacro ⟨length, hLast, hText⟩]
        simp only [List.head?_cons, Option.mem_def, Option.some.injEq, forall_eq', hNote, true_iff]
        rintro ⟨length, hLast, hText, -⟩
        exact hMacro ⟨length, hLast, hText⟩
    | tie =>
      rw [words, List.singleton_append, dropRepeats_cons_none rfl]
      simp [isNoteWord, Repeats]
    | rest length =>
      rw [words, List.cons_append, dropRepeats_render]
      split <;>
        simp [dropRepeats, isNoteWord, Repeats, length.render_eq, Length.parseMacro?_eq_none]
    | note length number =>
      rw [words, List.cons_append, dropRepeats_render]
      split
      · next hLast =>
        rw [List.singleton_append, dropRepeats_cons_none (Length.parseMacro?_eq_none (by decide) _)]
        simp [isNoteWord, Repeats, hLast]
      · next hLast =>
        simp only [List.head?_cons, Option.mem_def, Option.some.injEq, forall_eq']
        rw [length.render_eq, isNoteWord_cons (by decide)]
        simp only [true_iff]
        rintro ⟨length', hLast', rfl, -⟩
        exact hLast hLast'

/-- What is left of the words of fragments has a note behind a tie exactly if such a note is exposed
by what was dropped. -/
theorem isChain_dropRepeats_iff {last : Option Length} {fs : List Fragment}
    (h : ∀ f ∈ fs, f.Plain) :
    (dropRepeats Length.parseMacro? last (fs.flatMap words)).IsChain SilentWord ↔
      ¬Exposed last fs := by
  induction fs generalizing last with
  | nil => simp [dropRepeats, Exposed]
  | cons f fs ih =>
    have hFragments : ∀ g ∈ fs, g.Plain := fun g hg => h g (List.mem_cons_of_mem _ hg)
    rw [List.flatMap_cons, dropRepeats_append, lastLength_words, Exposed]
    by_cases hTie : f = tie
    · subst hTie
      have hWords : dropRepeats Length.parseMacro? last tie.words = [['&']] :=
        dropRepeats_cons_none rfl
      have hHead : (∀ word ∈ (dropRepeats Length.parseMacro? last (fs.flatMap words)).head?,
          SilentWord ['&'] word) ↔ ¬∃ length, last = some length ∧ Repeats length fs := by
        simpa [SilentWord] using head_dropRepeats_iff hFragments
      rw [hWords, List.singleton_append, List.isChain_cons, ih hFragments,
        show (tie.length? <|> last) = last from rfl, hHead, not_or]
      simp
    · have hSilent : ∀ word ∈ dropRepeats Length.parseMacro? last f.words, ∀ next,
          SilentWord word next := by
        rintro word hWord next rfl
        exact absurd ((h f (by simp)).eq_tie_of_mem_words (mem_of_mem_dropRepeats hWord)) hTie
      rw [isChain_append_iff hSilent, ih hFragments]
      simp [hTie]

theorem repeats_map_sounded {length : Length} {fs : List Fragment} :
    Repeats length (fs.map sounded) ↔ Repeats length fs := by
  induction fs with
  | nil => rfl
  | cons f fs ih =>
    cases f with
    | verbatim text => simp [sounded, Repeats, ih]
    | tie | rest => simp [sounded, Repeats]
    | note length' number =>
      obtain ⟨number', hSounded, hNumeral⟩ := exists_sounded_note length' number
      rw [List.map_cons, hSounded]
      simp [Repeats, hNumeral]

theorem sounded_eq_tie_iff {f : Fragment} : f.sounded = tie ↔ f = tie := by
  cases f with
  | note length number =>
    obtain ⟨number', hSounded, -⟩ := exists_sounded_note length number
    simp [hSounded]
  | _ => rfl

theorem length?_sounded (f : Fragment) : f.sounded.length? = f.length? := by
  cases f with
  | note length number =>
    obtain ⟨number', hSounded, -⟩ := exists_sounded_note length number
    rw [hSounded]
    rfl
  | _ => rfl

theorem exposed_map_sounded {last : Option Length} {fs : List Fragment} :
    Exposed last (fs.map sounded) ↔ Exposed last fs := by
  induction fs generalizing last with
  | nil => rfl
  | cons f fs ih =>
    simp only [List.map_cons, Exposed, sounded_eq_tie_iff, length?_sounded, repeats_map_sounded, ih]

theorem exposed_iff {last : Option Length} {fs : List Fragment} : Exposed last fs ↔
    ∃ before after length, fs = before ++ tie :: after ∧
      lastLength length? last before = some length ∧ Repeats length after := by
  induction fs generalizing last with
  | nil => simp [Exposed]
  | cons f fs ih =>
    constructor
    · rintro (⟨rfl, length, rfl, h⟩ | h)
      · exact ⟨[], fs, length, rfl, rfl, h⟩
      · obtain ⟨before, after, length, rfl, hLast, h⟩ := ih.mp h
        exact ⟨f :: before, after, length, rfl, hLast, h⟩
    · rintro ⟨before, after, length, hFragments, hLast, h⟩
      cases before with
      | nil =>
        obtain ⟨rfl, rfl⟩ := List.cons.inj hFragments
        exact .inl ⟨rfl, length, hLast, h⟩
      | cons g before =>
        obtain ⟨rfl, rfl⟩ := List.cons.inj hFragments
        exact .inr (ih.mpr ⟨before, after, length, rfl, hLast, h⟩)

end Fragment

namespace Voice

/-- No tie of a converted voice has a note directly behind it, unless macros stood between the two
which all set the length that was set before the tie. -/
theorem isChain_silent_iff (voice : List Char) :
    ((Lexeme.tokenize (convert voice)).map (·.token)).IsChain Silent ↔
      ∀ before text after length, fragments voice = before ++ .tie :: .verbatim text :: after →
        Fragment.Repeats length (.verbatim text :: after) →
        lastLength Fragment.length? none before ≠ some length := by
  have hKept : ∀ word ∈ dropRepeats Length.parseMacro? none (words voice), IsWord word :=
    fun _ hWord => isWord_of_mem_words (mem_of_mem_dropRepeats hWord)
  have hTokens : (Lexeme.tokenize (convert voice)).map (·.token) = Lexeme.tokens
      ([] ++ (dropRepeats Length.parseMacro? none (words voice)).flatten) := by
    rw [List.nil_append, ← convert_eq, Lexeme.tokens, contents, List.map_map]
    rfl
  rw [hTokens, isChain_tokens_flatten_iff hKept (by simp), words,
    Fragment.isChain_dropRepeats_iff fun _ => plain_of_mem_sounded,
    Fragment.exposed_map_sounded, Fragment.exposed_iff]
  constructor
  · intro h before text after length hFragments hRepeats hLast
    exact h ⟨before, _, length, hFragments, hLast, hRepeats⟩
  · rintro h ⟨before, after, length, hFragments, hLast, hRepeats⟩
    have hChain := Fragment.isChain_resolveAfter false
      (State.initial.emitAll (Lexeme.tokenize voice))
    change (fragments voice).IsChain _ at hChain
    cases after with
    | nil => exact hRepeats
    | cons f after =>
      cases f with
      | verbatim text => exact h before text after length hFragments hRepeats hLast
      | tie | rest => exact hRepeats
      | note length' number =>
        rw [hFragments, List.isChain_append_cons_cons] at hChain
        have hSilent := hChain.2.1 rfl
        simp [Fragment.silence, hRepeats.2] at hSilent

/-- A macro between a tie and a note is dropped, and the note sounds behind the tie. -/
theorem not_forall_isChain_silent : ¬∀ voice : List Char,
    ((Lexeme.tokenize (convert voice)).map (·.token)).IsChain Silent := by
  intro h
  exact absurd (h "c&l4c".toList) (by decide +kernel)

end Voice

end Drumline
