import Drumline.Token.Shape
import Mathlib.Data.List.TakeWhile

/-! The tails of tokens in parts.  A `Tail` is a sign, digits and a dot, each of which may be
missing; `Shape.Admits` says that a shape allows it, and `Shape.Stops` that no character of the text
behind it makes it longer.  The main statements are `Shape.split?_text_append`, that an admitted
tail is cut off where it stops, and `Shape.exists_tail`, that nothing else is cut off. -/

namespace Drumline.Token

/-- The text does not start with a character that satisfies `p`. -/
def HeadNot (p : Char → Bool) (text : List Char) : Prop := ∀ c ∈ text.head?, p c = false

@[simp] theorem headNot_nil (p : Char → Bool) : HeadNot p [] := by simp [HeadNot]

@[simp] theorem headNot_cons {p : Char → Bool} {c : Char} {text : List Char} :
    HeadNot p (c :: text) ↔ p c = false := by simp [HeadNot]

instance (p : Char → Bool) : (text : List Char) → Decidable (HeadNot p text)
  | [] => .isTrue (headNot_nil p)
  | c :: _ => decidable_of_iff (p c = false) headNot_cons.symm

theorem headNot_dropWhile (p : Char → Bool) (text : List Char) :
    HeadNot p (text.dropWhile p) := by
  induction text with
  | nil => simp
  | cons c text ih => by_cases h : p c <;> simp [h, ih]

theorem takeWhile_append_of_headNot {p : Char → Bool} {run rest : List Char}
    (hRun : ∀ c ∈ run, p c = true) (hRest : HeadNot p rest) :
    (run ++ rest).takeWhile p = run := by
  rw [List.takeWhile_append_of_pos hRun]
  cases rest with
  | nil => simp
  | cons c rest => simp [headNot_cons.mp hRest]

theorem dropWhile_append_of_headNot {p : Char → Bool} {run rest : List Char}
    (hRun : ∀ c ∈ run, p c = true) (hRest : HeadNot p rest) :
    (run ++ rest).dropWhile p = rest := by
  rw [List.dropWhile_append_of_pos hRun]
  cases rest with
  | nil => rfl
  | cons c rest => simp [headNot_cons.mp hRest]

theorem splitHead_append_of_headNot {p : Char → Bool} {first : Option Char} {rest : List Char}
    (hFirst : ∀ c ∈ first, p c = true) (hRest : first = none → HeadNot p rest) :
    splitHead p (first.toList ++ rest) = (first.toList, rest) := by
  cases first with
  | some c => simp [splitHead, hFirst c rfl]
  | none =>
    cases rest with
    | nil => rfl
    | cons c rest => simp [splitHead, headNot_cons.mp (hRest rfl)]

theorem exists_of_splitHead (p : Char → Bool) (text : List Char) :
    ∃ (first : Option Char) (rest : List Char), splitHead p text = (first.toList, rest) ∧
      (∀ c ∈ first, p c = true) ∧ (first = none → HeadNot p rest) := by
  cases text with
  | nil => exact ⟨none, [], rfl, by simp, by simp⟩
  | cons c text =>
    by_cases h : p c
    · exact ⟨some c, text, by simp [splitHead, h], by simpa using h, by simp⟩
    · exact ⟨none, c :: text, by simp [splitHead, h], by simp, by simpa using h⟩

def dotText (dotted : Bool) : List Char := if dotted then ['.'] else []

@[simp] theorem dotText_true : dotText true = ['.'] := rfl

@[simp] theorem dotText_false : dotText false = [] := rfl

/-- What follows the first character of a token, in parts. -/
structure Tail where
  sign : Option Char
  digits : List Char
  dotted : Bool

def Tail.text (t : Tail) : List Char := t.sign.toList ++ t.digits ++ dotText t.dotted

/-- A character that can follow the first one in a token. -/
def isInner (c : Char) : Bool := isSign c || c.isDigit || c == '.'

theorem isSign_eq_false_of_isDigit {c : Char} (h : c.isDigit = true) : isSign c = false := by
  rw [← Bool.not_eq_true]
  intro hs
  simp only [isSign, Bool.or_eq_true, beq_iff_eq] at hs
  rcases hs with rfl | rfl <;> exact absurd h (by decide)

namespace Shape

/-- The shape allows the tail. -/
structure Admits (shape : Shape) (t : Tail) : Prop where
  sign : ∀ c ∈ t.sign, shape.sign = true ∧ isSign c = true
  digits : ∀ c ∈ t.digits, c.isDigit = true
  none : shape.digits = .none → t.digits = []
  some : shape.digits = .some → t.digits ≠ []
  dot : t.dotted = true → shape.dot = true

/-- The tail does not go on into the text behind it. -/
structure Stops (shape : Shape) (t : Tail) (rest : List Char) : Prop where
  sign : shape.sign = true → t.text = [] → HeadNot isSign rest
  digits : shape.digits ≠ .none → t.dotted = false → HeadNot Char.isDigit rest
  dot : shape.dot = true → t.dotted = false → HeadNot (· == '.') rest

variable {shape : Shape} {t t' : Tail} {text tail rest : List Char}

theorem Admits.of_mem_text (ha : shape.Admits t) {c : Char} (h : c ∈ t.text) :
    shape.sign = true ∧ isSign c = true ∨ shape.digits ≠ .none ∧ c.isDigit = true ∨
      shape.dot = true ∧ c = '.' := by
  simp only [Tail.text, List.mem_append, Option.mem_toList] at h
  rcases h with (h | h) | h
  · exact .inl (ha.sign c h)
  · exact .inr (.inl ⟨fun hNone => by simp [ha.none hNone] at h, ha.digits c h⟩)
  · cases hDot : t.dotted with
    | true => exact .inr (.inr ⟨ha.dot hDot, by simpa [hDot] using h⟩)
    | false => simp [hDot] at h

theorem Admits.isInner (h : shape.Admits t) : ∀ c ∈ t.text, isInner c = true := by
  intro c hc
  rcases h.of_mem_text hc with ⟨-, hc⟩ | ⟨-, hc⟩ | ⟨-, rfl⟩
  · simp [Token.isInner, hc]
  · simp [Token.isInner, hc]
  · rfl

theorem Stops.of_headNot (h : HeadNot Token.isInner rest) : shape.Stops t rest := by
  have hc : ∀ c ∈ rest.head?, isSign c = false ∧ c.isDigit = false ∧ (c == '.') = false := by
    intro c hc
    have := h c hc
    simp only [Token.isInner, Bool.or_eq_false_iff] at this
    exact ⟨this.1.1, this.1.2, this.2⟩
  exact ⟨fun _ _ c h => (hc c h).1, fun _ _ c h => (hc c h).2.1, fun _ _ c h => (hc c h).2.2⟩

/-- A tail stops where it stopped, and at a character that stands in no tail. -/
theorem Stops.of_head? {rest' : List Char} (hs : shape.Stops t rest)
    (h : ∀ c ∈ rest'.head?, c ∈ rest.head? ∨ Token.isInner c = false) : shape.Stops t rest' := by
  have hNot : ∀ {p : Char → Bool}, (∀ c, Token.isInner c = false → p c = false) →
      HeadNot p rest → HeadNot p rest' := by
    intro p hp hRest c hc
    rcases h c hc with hc | hc
    · exact hRest c hc
    · exact hp c hc
  refine ⟨fun hSign hText => hNot ?_ (hs.sign hSign hText),
    fun hDigits hDotted => hNot ?_ (hs.digits hDigits hDotted),
    fun hDot hDotted => hNot ?_ (hs.dot hDot hDotted)⟩
  all_goals
    intro c hc
    simp only [Token.isInner, Bool.or_eq_false_iff] at hc
    simp [hc]

theorem Admits.sign_eq_none (ha : shape.Admits t) (h : shape.sign = false) :
    t.sign = Option.none := by
  refine Option.eq_none_iff_forall_not_mem.mpr fun c hc => ?_
  rw [(ha.sign c hc).1] at h
  cases h

theorem Admits.dotted_eq_false (ha : shape.Admits t) (h : shape.dot = false) :
    t.dotted = false := by
  rw [← Bool.not_eq_true] at h ⊢
  exact fun hDot => h (ha.dot hDot)

theorem splitSign_text_append (ha : shape.Admits t)
    (hs : shape.sign = true → t.text = [] → HeadNot isSign rest) :
    shape.splitSign (t.text ++ rest) = (t.sign.toList, t.digits ++ (dotText t.dotted ++ rest)) := by
  have hText : t.text ++ rest = t.sign.toList ++ (t.digits ++ (dotText t.dotted ++ rest)) := by
    simp [Tail.text]
  unfold splitSign
  split
  · next hSign =>
    rw [hText, splitHead_append_of_headNot fun c hc => (ha.sign c hc).2]
    intro hNone
    cases hd : t.digits with
    | cons d ds =>
      simpa using isSign_eq_false_of_isDigit (ha.digits d (by simp [hd]))
    | nil =>
      cases hDot : t.dotted with
      | true => simp [isSign]
      | false => simpa using hs hSign (by simp [Tail.text, hNone, hd, hDot])
  · next hSign =>
    rw [hText, ha.sign_eq_none (by simpa using hSign)]
    rfl

theorem splitDigits_digits_append (ha : shape.Admits t) (hs : shape.Stops t rest) :
    shape.splitDigits (t.digits ++ (dotText t.dotted ++ rest)) =
      (t.digits, dotText t.dotted ++ rest) := by
  unfold splitDigits
  split
  · next h => rw [ha.none h]; rfl
  · next h =>
    have hRest : HeadNot Char.isDigit (dotText t.dotted ++ rest) := by
      cases hDot : t.dotted with
      | true => simp
      | false => exact hs.digits h hDot
    rw [takeWhile_append_of_headNot ha.digits hRest, dropWhile_append_of_headNot ha.digits hRest]

theorem splitDot_dotText_append (ha : shape.Admits t) (hs : shape.Stops t rest) :
    shape.splitDot (dotText t.dotted ++ rest) = (dotText t.dotted, rest) := by
  unfold splitDot
  cases hDot : t.dotted with
  | true => simp [ha.dot hDot, splitHead]
  | false =>
    split
    · next h =>
      show splitHead _ (Option.none.toList ++ rest) = (Option.none.toList, rest)
      exact splitHead_append_of_headNot (by simp) fun _ => hs.dot h hDot
    · rfl

/-- A tail that the shape admits is cut off where it stops. -/
theorem split?_text_append (ha : shape.Admits t) (hs : shape.Stops t rest) :
    shape.split? (t.text ++ rest) = Option.some (t.text, rest) := by
  have hSome : ¬(shape.digits = .some ∧ t.digits = []) := fun h => ha.some h.1 h.2
  simp only [split?, splitSign_text_append ha hs.sign, splitDigits_digits_append ha hs,
    splitDot_dotText_append ha hs, if_neg hSome]
  rfl

theorem exists_of_splitSign (shape : Shape) (text : List Char) :
    ∃ (sign : Option Char) (rest : List Char), shape.splitSign text = (sign.toList, rest) ∧
      (∀ c ∈ sign, shape.sign = true ∧ isSign c = true) ∧
      (shape.sign = true → sign = Option.none → HeadNot isSign rest) := by
  unfold splitSign
  split
  · next h =>
    obtain ⟨sign, rest, hSplit, hSign, hRest⟩ := exists_of_splitHead isSign text
    exact ⟨sign, rest, hSplit, fun c hc => ⟨h, hSign c hc⟩, fun _ => hRest⟩
  · next h => exact ⟨Option.none, text, rfl, by simp, fun h' => absurd h' h⟩

theorem exists_of_splitDigits (shape : Shape) (text : List Char) :
    ∃ digits rest : List Char, shape.splitDigits text = (digits, rest) ∧
      (∀ c ∈ digits, c.isDigit = true) ∧ (shape.digits = .none → digits = []) ∧
      (shape.digits ≠ .none → HeadNot Char.isDigit rest) := by
  unfold splitDigits
  split
  · next h => exact ⟨[], text, rfl, by simp, fun _ => rfl, fun h' => absurd h h'⟩
  · next h =>
    exact ⟨_, _, rfl, fun c hc => List.mem_takeWhile_imp hc, fun h' => absurd h' h,
      fun _ => headNot_dropWhile _ _⟩

theorem exists_of_splitDot (shape : Shape) (text : List Char) :
    ∃ (dotted : Bool) (rest : List Char), shape.splitDot text = (dotText dotted, rest) ∧
      (dotted = true → shape.dot = true) ∧
      (shape.dot = true → dotted = false → HeadNot (· == '.') rest) := by
  unfold splitDot
  split
  · next h =>
    obtain ⟨first, rest, hSplit, hFirst, hRest⟩ := exists_of_splitHead (· == '.') text
    cases first with
    | none => exact ⟨false, rest, hSplit, by simp, fun _ _ => hRest rfl⟩
    | some c =>
      obtain rfl : c = '.' := by simpa using hFirst c rfl
      exact ⟨true, rest, hSplit, fun _ => h, by simp⟩
  · next h => exact ⟨false, text, rfl, by simp, fun h' => absurd h' h⟩

/-- What is cut off is a tail that the shape admits, up to where it stops. -/
theorem exists_tail (h : shape.split? text = Option.some (tail, rest)) :
    ∃ t : Tail, shape.Admits t ∧ shape.Stops t rest ∧ t.text = tail := by
  obtain ⟨sign, rest₁, hSign, hSign₁, hSign₂⟩ := exists_of_splitSign shape text
  obtain ⟨digits, rest₂, hDigits, hDigits₁, hNone, hDigits₂⟩ := exists_of_splitDigits shape rest₁
  obtain ⟨dotted, rest₃, hDot, hDot₁, hDot₂⟩ := exists_of_splitDot shape rest₂
  have hRest₁ := splitDigits_append shape rest₁
  have hRest₂ := splitDot_append shape rest₂
  simp only [split?, hSign, hDigits, hDot] at h hRest₁ hRest₂
  split at h
  · cases h
  next hSome =>
  cases h
  refine ⟨⟨sign, digits, dotted⟩, ⟨hSign₁, hDigits₁, hNone, fun h h' => hSome ⟨h, h'⟩, hDot₁⟩,
    ⟨?_, ?_, hDot₂⟩, rfl⟩
  · intro h hText
    simp only [Tail.text, List.append_eq_nil_iff, Option.toList_eq_nil_iff] at hText
    obtain ⟨⟨rfl, rfl⟩, hDotText⟩ := hText
    have := hSign₂ h rfl
    rw [← hRest₁, ← hRest₂, hDotText] at this
    exact this
  · intro h hDotted
    have := hDigits₂ h
    rw [← hRest₂, show dotted = false from hDotted] at this
    exact this

theorem exists_split?_text_append (ha : shape.Admits t) (rest : List Char) :
    ∃ tail rest', shape.split? (t.text ++ rest) = Option.some (tail, rest') := by
  by_cases hSome : shape.digits = .some
  · obtain ⟨d, ds, hd⟩ := List.exists_cons_of_ne_nil (ha.some hSome)
    have hNe : t.text ≠ [] := by simp [Tail.text, hd]
    have hDigit : d.isDigit = true := ha.digits d (by simp [hd])
    simp [split?, splitSign_text_append ha fun _ h => absurd h hNe, splitDigits, hSome, hd, hDigit]
  · simp [split?, hSome]

theorem Admits.not_mem_append (ha : shape.Admits t) : '.' ∉ t.sign.toList ++ t.digits := by
  rw [List.mem_append, Option.mem_toList]
  rintro (h | h)
  · exact absurd (ha.sign _ h).2 (by decide)
  · exact absurd (ha.digits _ h) (by decide)

theorem Admits.dotted_iff (ha : shape.Admits t) : t.dotted = true ↔
    t.text.getLast? = Option.some '.' := by
  cases hDot : t.dotted with
  | true => simp [Tail.text, hDot]
  | false =>
    have hNot : '.' ∉ t.text := by simpa [Tail.text, hDot] using ha.not_mem_append
    simpa using fun h => hNot (List.mem_of_getLast? h)

theorem Admits.not_mem_dropLast (ha : shape.Admits t) : '.' ∉ t.text.dropLast := by
  cases hDot : t.dotted with
  | true => simpa [Tail.text, hDot, -List.append_assoc] using ha.not_mem_append
  | false =>
    intro h
    exact ha.not_mem_append (by simpa [Tail.text, hDot] using List.dropLast_subset _ h)

theorem Admits.isSign_eq_false_of_mem_tail (ha : shape.Admits t) {c : Char}
    (h : c ∈ t.text.tail) : isSign c = false := by
  have hBody : c ∈ t.digits ++ dotText t.dotted := by
    cases hSign : t.sign with
    | none => exact List.mem_of_mem_tail (by simpa [Tail.text, hSign] using h)
    | some s => simpa [Tail.text, hSign] using h
  rcases List.mem_append.mp hBody with hDigit | hDot
  · exact isSign_eq_false_of_isDigit (ha.digits c hDigit)
  · cases hDotted : t.dotted <;> simp_all [isSign]

theorem Stops.congr (ha : shape.Admits t) (ha' : shape.Admits t')
    (hText : t.text = t'.text) (hs : shape.Stops t rest) : shape.Stops t' rest := by
  have hDot : t'.dotted = false → t.dotted = false := by
    intro h
    rw [← Bool.not_eq_true] at h ⊢
    rwa [ha.dotted_iff, hText, ← ha'.dotted_iff]
  exact ⟨fun h h' => hs.sign h (hText.trans h'), fun h h' => hs.digits h (hDot h'),
    fun h h' => hs.dot h (hDot h')⟩

/-- A tail that stops is the longest one that the shape admits there. -/
theorem Stops.length_le (hs : shape.Stops t rest) (ha' : shape.Admits t')
    (h : t'.text <+: t.text ++ rest) : t'.text.length ≤ t.text.length := by
  by_contra hLong
  obtain ⟨more, hMore⟩ := List.prefix_of_prefix_length_le (List.prefix_append t.text rest) h
    (by omega)
  cases more with
  | nil => simp [← hMore] at hLong
  | cons c more =>
    -- `c` is the first character that `t'` has beyond `t`, and the one before which `t` stops
    have hHead : c ∈ rest.head? := by
      rw [← hMore, List.prefix_append_right_inj] at h
      obtain ⟨after, rfl⟩ := h
      simp
    have hDotted : t.dotted = false := by
      rw [← Bool.not_eq_true]
      intro hDot
      refine ha'.not_mem_dropLast ?_
      rw [← hMore, List.dropLast_append_of_ne_nil (by simp)]
      simp [Tail.text, hDot]
    have hEmpty : isSign c = true → t.text = [] := by
      intro hSign
      by_contra hNe
      have hTail : c ∈ t'.text.tail := by
        rw [← hMore, List.tail_append_of_ne_nil hNe]
        simp
      rw [ha'.isSign_eq_false_of_mem_tail hTail] at hSign
      cases hSign
    rcases ha'.of_mem_text (c := c) (by simp [← hMore]) with ⟨h, hc⟩ | ⟨h, hc⟩ | ⟨h, rfl⟩
    · simp [hs.sign h (hEmpty hc) c hHead] at hc
    · simp [hs.digits h hDotted c hHead] at hc
    · simpa using hs.dot h hDotted _ hHead

/-- A tail goes on into a character exactly if the shape admits the two together. -/
theorem stops_cons_iff {c : Char} (ha : shape.Admits t) :
    shape.Stops t (c :: rest) ↔ ∀ t', shape.Admits t' → t'.text ≠ t.text ++ [c] := by
  constructor
  · intro hs t' ha' hText
    have hLength := hs.length_le ha' (hText ▸ by simp)
    rw [hText, List.length_append, List.length_singleton] at hLength
    omega
  · intro h
    refine ⟨fun hSign hText => headNot_cons.mpr ?_, fun hDigits hDotted => headNot_cons.mpr ?_,
      fun hDot hDotted => headNot_cons.mpr ?_⟩ <;> rw [← Bool.not_eq_true] <;> intro hc
    · refine h ⟨Option.some c, [], false⟩ ⟨?_, by simp, fun _ => rfl, fun hSome => ?_, by simp⟩ ?_
      · rintro d ⟨⟩
        exact ⟨hSign, hc⟩
      · exact absurd (ha.some hSome) (by simp_all [Tail.text])
      · rw [hText]
        rfl
    · refine h ⟨t.sign, t.digits ++ [c], false⟩
        ⟨ha.sign, ?_, fun hNone => absurd hNone hDigits, by simp, by simp⟩ ?_
      · simpa [hc, or_imp, forall_and] using ha.digits
      · simp [Tail.text, hDotted]
    · obtain rfl : c = '.' := by simpa using hc
      refine h ⟨t.sign, t.digits, true⟩ ⟨ha.sign, ha.digits, ha.none, ha.some, fun _ => hDot⟩ ?_
      simp [Tail.text, hDotted]

theorem exists_split?_ne (ha : shape.Admits t) (hs : ¬shape.Stops t rest) :
    ∃ tail rest', shape.split? (t.text ++ rest) = Option.some (tail, rest') ∧ tail ≠ t.text := by
  obtain ⟨tail, rest', h⟩ := exists_split?_text_append ha rest
  refine ⟨tail, rest', h, ?_⟩
  rintro rfl
  obtain ⟨t', ha', hs', hText⟩ := exists_tail h
  obtain rfl : rest' = rest := List.append_cancel_left (split?_append h)
  exact hs (hs'.congr ha' ha hText)

/-- A character that stands in no tail separates the texts on its two sides. -/
theorem split?_append_cons {c : Char} (hc : Token.isInner c = false) (text after : List Char) :
    shape.split? (text ++ c :: after) =
      (shape.split? text).map fun (tail, rest) => (tail, rest ++ c :: after) := by
  cases h : shape.split? text with
  | some cut =>
    obtain ⟨tail, rest⟩ := cut
    obtain ⟨t, ha, hs, rfl⟩ := exists_tail h
    rw [← split?_append h, List.append_assoc]
    refine split?_text_append ha ?_
    cases rest with
    | nil => exact .of_headNot (by simpa using hc)
    | cons d rest => exact ⟨by simpa using hs.sign, by simpa using hs.digits, by simpa using hs.dot⟩
  | none =>
    cases h' : shape.split? (text ++ c :: after) with
    | none => rfl
    | some cut =>
      -- the tail cannot reach beyond `c`, so it would have been cut off without `c` too
      obtain ⟨tail, rest⟩ := cut
      obtain ⟨t, ha, -, rfl⟩ := exists_tail h'
      have hPrefix : ∃ more, text = t.text ++ more := by
        rcases List.append_eq_append_iff.mp (split?_append h') with
          ⟨more, hText, -⟩ | ⟨more, hText, hRest⟩
        · exact ⟨more, hText⟩
        · cases more with
          | nil => exact ⟨[], by simpa using hText.symm⟩
          | cons d more =>
            obtain ⟨rfl, -⟩ := List.cons.inj hRest
            have := ha.isInner c (by simp [hText])
            simp [hc] at this
      obtain ⟨more, rfl⟩ := hPrefix
      obtain ⟨_, _, hSome⟩ := exists_split?_text_append ha more
      rw [h] at hSome
      cases hSome

end Shape

end Drumline.Token
