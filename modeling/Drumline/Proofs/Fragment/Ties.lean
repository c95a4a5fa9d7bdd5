import Drumline.Fragment
import Mathlib.Data.List.Chain

/-! Ties place by place.  Whether a fragment falls silent depends only on the fragments that were
given, on the one before it and on itself (`getElem?_resolveTies`).  The main statement is
`resolveTies_at_once`, that silencing the fragments one after the other, where each step reads what
the steps before it have left, is silencing all of them at once. -/

namespace Drumline.Fragment

variable {fs : List Fragment} {f : Fragment} {i : Nat} {length : Length}

/-! ### Silence -/

theorem silence_silence (f : Fragment) : f.silence.silence = f.silence := by
  cases f with
  | note length number =>
    by_cases h : Numeral.isNumeral number <;> simp [silence, h]
  | _ => rfl

theorem eq_tie_of_silence {f : Fragment} (h : f.silence = tie) : f = tie := by
  cases f with
  | note length number =>
    simp only [silence] at h
    split at h <;> cases h
  | _ => exact h

theorem silence_eq_rest_iff : f.silence = rest length ↔
    f = rest length ∨ ∃ number, f = note length number ∧ Numeral.isNumeral number = true := by
  cases f with
  | note length' number =>
    by_cases h : Numeral.isNumeral number <;> simp [silence, h, and_assoc]
  | _ => simp [silence]

theorem silence_eq_self (h : ∀ length number, f = note length number →
    Numeral.isNumeral number = false) : f.silence = f := by
  cases f with
  | note length number => simp [silence, h length number rfl]
  | _ => rfl

/-- The fragment directly behind a tie is silent. -/
theorem isChain_resolveAfter (afterTie : Bool) (fs : List Fragment) :
    (resolveAfter afterTie fs).IsChain fun f g => f = tie → g.silence = g := by
  induction fs generalizing afterTie with
  | nil => exact .nil
  | cons f fs ih =>
    rw [resolveAfter, List.isChain_cons]
    refine ⟨?_, ih _⟩
    intro g hg hTie
    have hFirst : f = tie := by
      cases afterTie with
      | false => exact hTie
      | true => exact eq_tie_of_silence hTie
    cases fs with
    | nil => cases hg
    | cons f' fs =>
      simp only [resolveAfter, hFirst, List.head?_cons, Option.mem_def, Option.some.injEq,
        beq_self_eq_true, if_true] at hg
      rw [← hg, silence_silence]

/-- Ties that were resolved in the first fragments need not be resolved again. -/
theorem resolveAfter_append (afterTie : Bool) (fs gs : List Fragment) :
    resolveAfter afterTie (resolveAfter afterTie fs ++ gs) = resolveAfter afterTie (fs ++ gs) := by
  induction fs generalizing afterTie with
  | nil => rfl
  | cons f fs ih =>
    have hTie : (f.silence == tie) = (f == tie) := by
      rw [Bool.eq_iff_iff, beq_iff_eq, beq_iff_eq]
      exact ⟨eq_tie_of_silence, fun h => by rw [h]; rfl⟩
    cases afterTie with
    | false => simp [resolveAfter, ih]
    | true => simp [resolveAfter, silence_silence, hTie, ih]

/-! ### Place by place -/

/-- A tie stands directly before place `i`. -/
def FollowsTie (fs : List Fragment) (i : Nat) : Prop := 0 < i ∧ fs[i - 1]? = some tie

instance (fs : List Fragment) : DecidablePred (FollowsTie fs) := fun i =>
  inferInstanceAs (Decidable (0 < i ∧ fs[i - 1]? = some tie))

theorem followsTie_succ : FollowsTie fs (i + 1) ↔ fs[i]? = some tie := by simp [FollowsTie]

theorem not_followsTie_zero : ¬FollowsTie fs 0 := fun h => Nat.lt_irrefl 0 h.1

theorem getElem?_resolveAfter (afterTie : Bool) (fs : List Fragment) (i : Nat) :
    (resolveAfter afterTie fs)[i]? =
      if FollowsTie fs i ∨ i = 0 ∧ afterTie = true then fs[i]?.map silence else fs[i]? := by
  induction fs generalizing afterTie i with
  | nil => simp [resolveAfter]
  | cons f fs ih =>
    cases i with
    | zero => cases afterTie <;> simp [resolveAfter, not_followsTie_zero]
    | succ i =>
      have hTie : (FollowsTie fs i ∨ i = 0 ∧ (f == tie) = true) ↔
          (FollowsTie (f :: fs) (i + 1) ∨ i + 1 = 0 ∧ afterTie = true) := by
        cases i with
        | zero => simp [not_followsTie_zero, followsTie_succ]
        | succ i => simp [followsTie_succ]
      simp only [resolveAfter, List.getElem?_cons_succ, ih, hTie]

/-- Each fragment of the result is that of its place, silenced if it follows a tie. -/
theorem getElem?_resolveTies (fs : List Fragment) (i : Nat) :
    (resolveTies fs)[i]? = if FollowsTie fs i then fs[i]?.map silence else fs[i]? := by
  simp [resolveTies, getElem?_resolveAfter]

theorem length_resolveAfter (afterTie : Bool) (fs : List Fragment) :
    (resolveAfter afterTie fs).length = fs.length := by
  induction fs generalizing afterTie with
  | nil => rfl
  | cons f fs ih => rw [resolveAfter, List.length_cons, List.length_cons, ih]

theorem getElem?_resolveTies_eq_tie_iff :
    (resolveTies fs)[i]? = some tie ↔ fs[i]? = some tie := by
  rw [getElem?_resolveTies]
  split
  · rw [Option.map_eq_some_iff]
    constructor
    · rintro ⟨f, hf, hTie⟩
      rw [hf, eq_tie_of_silence hTie]
    · intro h
      exact ⟨tie, h, rfl⟩
  · rfl

/-! ### One after the other -/

/-- The fragments, with the one behind place `i` silenced if a tie stands at that place. -/
def silenceBehind (fs : List Fragment) (i : Nat) : List Fragment :=
  if fs[i]? = some tie then fs.modify (i + 1) silence else fs

/-- The fragments silenced one after the other, from left to right. -/
def resolveInPlace (fs : List Fragment) : List Fragment :=
  (List.range (fs.length - 1)).foldl silenceBehind fs

theorem getElem?_silenceBehind (fs : List Fragment) (n i : Nat) : (silenceBehind fs n)[i]? =
    if i = n + 1 ∧ fs[n]? = some tie then fs[i]?.map silence else fs[i]? := by
  unfold silenceBehind
  by_cases hTie : fs[n]? = some tie
  · by_cases hi : i = n + 1
    · simp [hTie, hi]
    · simp [hTie, hi, Ne.symm hi]
  · simp [hTie]

/-- Up to the place behind those that were gone through, the fragments are those of the result, and
from there on they are still those that were given. -/
theorem getElem?_foldl_silenceBehind (fs : List Fragment) (n i : Nat) :
    ((List.range n).foldl silenceBehind fs)[i]? =
      if i ≤ n then (resolveTies fs)[i]? else fs[i]? := by
  induction n generalizing i with
  | zero =>
    cases i with
    | zero => simp [getElem?_resolveTies, not_followsTie_zero]
    | succ i => simp
  | succ n ih =>
    have hTie : ((List.range n).foldl silenceBehind fs)[n]? = some tie ↔ fs[n]? = some tie := by
      rw [ih, if_pos (Nat.le_refl n), getElem?_resolveTies_eq_tie_iff]
    rw [List.range_succ, List.foldl_append, List.foldl_cons, List.foldl_nil,
      getElem?_silenceBehind, ih i]
    simp only [hTie]
    by_cases hi : i = n + 1
    · -- this place is overwritten now and has not been before
      have hNew : ¬i ≤ n := by omega
      rw [if_neg hNew, if_pos (Nat.le_of_eq hi), getElem?_resolveTies, hi]
      simp only [followsTie_succ, true_and]
    · have hLe : i ≤ n + 1 ↔ i ≤ n := by omega
      simp only [hi, false_and, if_false, hLe]

theorem resolveInPlace_eq (fs : List Fragment) : resolveInPlace fs = resolveTies fs := by
  apply List.ext_getElem?
  intro i
  rw [resolveInPlace, getElem?_foldl_silenceBehind]
  split
  · rfl
  · have hEnd : fs.length ≤ i := by omega
    rw [List.getElem?_eq_none hEnd, List.getElem?_eq_none]
    rw [resolveTies, length_resolveAfter]
    exact hEnd

/-! ### Lengths -/

/-- The length of a note or rest. -/
def ownLength? : Fragment → Option Length
  | rest length | note length _ => some length
  | verbatim _ | tie => none

theorem ownLength?_silence (f : Fragment) : f.silence.ownLength? = f.ownLength? := by
  cases f with
  | note length number =>
    simp only [silence]
    split <;> rfl
  | _ => rfl

theorem filterMap_ownLength?_resolveAfter (afterTie : Bool) (fs : List Fragment) :
    (resolveAfter afterTie fs).filterMap ownLength? = fs.filterMap ownLength? := by
  induction fs generalizing afterTie with
  | nil => rfl
  | cons f fs ih =>
    have hFirst : (if afterTie then f.silence else f).ownLength? = f.ownLength? := by
      split
      · exact ownLength?_silence f
      · rfl
    simp only [resolveAfter, List.filterMap_cons, hFirst, ih]

/-- A note of the length stands at place `i`, a tie directly before it, and the number of the note
is one digit or more. -/
def FallsSilent (fs : List Fragment) (i : Nat) (length : Length) : Prop :=
  FollowsTie fs i ∧ ∃ number, fs[i]? = some (note length number) ∧
    number ≠ [] ∧ ∀ c ∈ number, c.isDigit = true

theorem getElem?_resolveTies_eq_rest_iff : (resolveTies fs)[i]? = some (rest length) ↔
    fs[i]? = some (rest length) ∨ FallsSilent fs i length := by
  rw [getElem?_resolveTies, FallsSilent]
  split
  · next hTie =>
    simp only [Option.map_eq_some_iff, silence_eq_rest_iff, Numeral.isNumeral, hTie]
    grind
  · next hTie => simp [hTie]

theorem getElem?_resolveTies_of_not (h : ∀ length, ¬FallsSilent fs i length) :
    (resolveTies fs)[i]? = fs[i]? := by
  rw [getElem?_resolveTies]
  split
  · next hTie =>
    cases hGiven : fs[i]? with
    | none => rfl
    | some f =>
      refine congrArg some (silence_eq_self ?_)
      rintro length number rfl
      rw [← Bool.not_eq_true]
      intro hNumeral
      simp only [Numeral.isNumeral] at hNumeral
      exact h length ⟨hTie, number, hGiven, by simpa using hNumeral⟩
  · rfl

/-- Silencing the fragments one after the other changes those that fall silent in the list that was
given, each into a rest of its length, and nothing else.  All ties stay, as do the lengths of the
notes and rests, and a second time nothing is changed. -/
theorem resolveTies_at_once (fs : List Fragment) :
    resolveInPlace fs = resolveTies fs ∧ (resolveTies fs).length = fs.length ∧
    (∀ (i : Nat) (length : Length), (resolveTies fs)[i]? = some (rest length) ↔
      fs[i]? = some (rest length) ∨ FallsSilent fs i length) ∧
    (∀ i : Nat, (∀ length, ¬FallsSilent fs i length) → (resolveTies fs)[i]? = fs[i]?) ∧
    resolveTies (resolveTies fs) = resolveTies fs ∧
    (∀ i : Nat, (resolveTies fs)[i]? = some tie ↔ fs[i]? = some tie) ∧
    (resolveTies fs).filterMap ownLength? = fs.filterMap ownLength? := by
  refine ⟨resolveInPlace_eq fs, length_resolveAfter false fs,
    fun i length => getElem?_resolveTies_eq_rest_iff, fun i => getElem?_resolveTies_of_not, ?_,
    fun i => getElem?_resolveTies_eq_tie_iff, filterMap_ownLength?_resolveAfter false fs⟩
  simpa [resolveTies] using resolveAfter_append false fs []

end Drumline.Fragment
