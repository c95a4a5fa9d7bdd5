import Drumline.Log.Conversion

/-! What the log of a conversion holds: a voice reports each character that it drops, in order
(`Voice.dropped_events`), and never warns (`Voice.level_ne_warn`). -/

namespace Drumline

/-- The lexeme that the event reports as dropped. -/
def Event.dropped? : Event → Option Lexeme
  | dropped stray => some stray
  | _ => none

variable {s : State} {x : Lexeme} {e : Event}

theorem State.mem_events (h : e ∈ s.events x) : ∃ raw error, e = .keptAsWritten raw error := by
  unfold events at h
  split at h
  · split at h
    · cases h
    · exact ⟨_, _, List.mem_singleton.mp h⟩
  · cases h

theorem State.filterMap_scanEvents (s : State) (xs : List Lexeme) :
    (s.scanEvents xs).filterMap Event.dropped? = xs.filter Lexeme.isStray := by
  induction xs generalizing s with
  | nil => rfl
  | cons x xs ih =>
    rw [scanEvents, List.filterMap_append, ih]
    cases hStray : x.isStray with
    | true => simp [Event.dropped?, hStray]
    | false =>
      have hEvents : (s.events x).filterMap Event.dropped? = [] := by
        rw [List.filterMap_eq_nil_iff]
        intro e he
        obtain ⟨raw, error, rfl⟩ := mem_events he
        rfl
      simp [hEvents, hStray]

theorem State.level_ne_warn {xs : List Lexeme} (h : e ∈ s.scanEvents xs) : e.level ≠ .warn := by
  induction xs generalizing s with
  | nil => cases h
  | cons x xs ih =>
    rw [scanEvents, List.mem_append] at h
    rcases h with h | h
    · split at h
      · obtain rfl := List.mem_singleton.mp h
        simp [Event.level]
      · obtain ⟨raw, error, rfl⟩ := mem_events h
        simp [Event.level]
    · exact ih h

namespace Voice

theorem dropped_events (voice : List Char) :
    (events voice).filterMap Event.dropped? = Lexeme.strays voice := by
  have hRepeats : ((repeats (spaced voice)).map Event.droppedRepeat).filterMap
      Event.dropped? = [] := by
    simp [Event.dropped?]
  simp only [events, List.filterMap_append, State.filterMap_scanEvents, hRepeats]
  simp [Event.dropped?, Lexeme.strays]

/-- What a voice reports while it is played, and what it reports after that. -/
theorem mem_events {voice : List Char} (h : e ∈ events voice) :
    e ∈ State.initial.scanEvents (Lexeme.scan voice) ∨
      (∃ count final, e = .played count final) ∨ (∃ text, e = .intermediate text) ∨
      (∃ run, e = .droppedRepeat run) ∨ ∃ result, e = .converted voice result := by
  simp only [events, List.mem_append, List.mem_cons, List.mem_map, List.not_mem_nil,
    or_false] at h
  rcases h with ((h | rfl | rfl) | ⟨run, -, rfl⟩) | rfl
  · exact .inl h
  all_goals simp

theorem level_ne_warn {voice : List Char} (h : e ∈ events voice) : e.level ≠ .warn := by
  rcases mem_events h with h | ⟨_, _, rfl⟩ | ⟨_, rfl⟩ | ⟨_, rfl⟩ | ⟨_, rfl⟩
  · exact State.level_ne_warn h
  all_goals simp [Event.level]

end Voice

end Drumline
