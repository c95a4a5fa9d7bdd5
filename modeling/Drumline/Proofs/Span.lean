import Drumline.Span

/-! Where a text stands in another.  `Text.StandsAt` puts a part behind the first `n` bytes of a
text.  The main statement is `Span.slice?_eq_some_iff`, that a span cuts out the part that stands
there. -/

namespace Drumline

variable {text part before after rest : List Char} {n : Nat}

theorem Text.byteSize_eq_zero : Text.byteSize text = 0 ↔ text = [] := by
  cases text with
  | nil => simp
  | cons c text =>
    have := c.utf8Size_pos
    simp only [byteSize_cons, reduceCtorEq, iff_false]
    omega

theorem Text.byteSize_pos (h : text ≠ []) : 0 < Text.byteSize text :=
  Nat.pos_of_ne_zero (mt byteSize_eq_zero.mp h)

/-- The part stands in the text behind the first `n` bytes. -/
def Text.StandsAt (text : List Char) (n : Nat) (part : List Char) : Prop :=
  ∃ before after, before ++ (part ++ after) = text ∧ Text.byteSize before = n

theorem Text.StandsAt.add_le (h : Text.StandsAt text n part) :
    n + Text.byteSize part ≤ Text.byteSize text := by
  obtain ⟨before, after, rfl, rfl⟩ := h
  simp only [Text.byteSize_append]
  omega

namespace Span

theorem cut?_append (before rest : List Char) :
    cut? (Text.byteSize before) (before ++ rest) = some (before, rest) := by
  induction before with
  | nil => rw [Text.byteSize_nil, cut?]; rfl
  | cons c before ih =>
    obtain ⟨size, hSize⟩ := Nat.exists_eq_succ_of_ne_zero
      (mt Text.byteSize_eq_zero.mp (List.cons_ne_nil c before))
    have hRest : size + 1 - c.utf8Size = Text.byteSize before := by
      rw [Text.byteSize_cons] at hSize
      omega
    have hFits : c.utf8Size ≤ size + 1 := by
      rw [Text.byteSize_cons] at hSize
      omega
    rw [hSize, List.cons_append, cut?, if_pos hFits, hRest, ih]
    rfl

theorem eq_of_cut? (h : cut? n text = some (before, rest)) :
    before ++ rest = text ∧ Text.byteSize before = n := by
  induction n, text using cut?.induct generalizing before with
  | case1 text =>
    simp only [cut?, Option.some.injEq, Prod.mk.injEq] at h
    obtain ⟨rfl, rfl⟩ := h
    exact ⟨rfl, rfl⟩
  | case2 n => simp [cut?] at h
  | case3 n c text hFits ih =>
    rw [cut?, if_pos hFits, Option.map_eq_some_iff] at h
    obtain ⟨⟨before, rest⟩, h, hEq⟩ := h
    cases hEq
    obtain ⟨rfl, hSize⟩ := ih h
    exact ⟨rfl, by rw [Text.byteSize_cons, hSize]; omega⟩
  | case4 n c text hFits =>
    rw [cut?, if_neg hFits] at h
    cases h

/-- What stands behind the first bytes is what the rest starts with. -/
theorem standsAt_iff (h : cut? n text = some (before, rest)) :
    Text.StandsAt text n part ↔ part <+: rest := by
  constructor
  · rintro ⟨before', after, rfl, rfl⟩
    rw [cut?_append] at h
    cases h
    exact List.prefix_append part after
  · rintro ⟨after, rfl⟩
    obtain ⟨rfl, rfl⟩ := eq_of_cut? h
    exact ⟨before, after, rfl, rfl⟩

theorem prefix_or_prefix_of_standsAt {part' : List Char} (h : Text.StandsAt text n part)
    (h' : Text.StandsAt text n part') : part <+: part' ∨ part' <+: part := by
  obtain ⟨before, after, rfl, rfl⟩ := h
  rw [standsAt_iff (cut?_append before _)] at h'
  exact List.prefix_or_prefix_of_prefix (List.prefix_append part after) h'

theorem cut?_add (h : cut? n text = some (before, part ++ rest)) :
    cut? (n + Text.byteSize part) text = some (before ++ part, rest) := by
  obtain ⟨rfl, rfl⟩ := eq_of_cut? h
  rw [← List.append_assoc, ← Text.byteSize_append, cut?_append]

theorem slice?_eq_some_iff {span : Span} : slice? text span = some part ↔
    Text.StandsAt text span.start part ∧ span.stop = span.start + Text.byteSize part := by
  by_cases hLe : span.start ≤ span.stop
  · have hStop : span.stop = span.start + Text.byteSize part ↔
        span.length = Text.byteSize part := by
      rw [length]
      omega
    have hGuard : guard (span.start ≤ span.stop) = some () := if_pos hLe
    rw [hStop, slice?, hGuard]
    simp only [Option.pure_def, Option.bind_eq_bind, Option.bind_some, Option.bind_eq_some_iff,
      Option.some.injEq]
    constructor
    · rintro ⟨⟨before, rest⟩, hBefore, ⟨inside, after⟩, hInside, rfl⟩
      obtain ⟨rfl, hSize⟩ := eq_of_cut? hInside
      exact ⟨(standsAt_iff hBefore).mpr (List.prefix_append inside after), hSize.symm⟩
    · rintro ⟨⟨before, after, rfl, hStart⟩, hSize⟩
      exact ⟨_, by rw [← hStart, cut?_append], _, by rw [hSize, cut?_append], rfl⟩
  · have hGuard : guard (span.start ≤ span.stop) = none := if_neg hLe
    have hNone : slice? text span = none := by
      rw [slice?, hGuard]
      rfl
    rw [hNone]
    constructor
    · intro h
      cases h
    · rintro ⟨-, hStop⟩
      omega

end Span

end Drumline
