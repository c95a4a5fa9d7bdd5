import Drumline.Proofs.Log
import Drumline.Proofs.Options

/-! The voices of a score.  The commands are deleted from the source as a whole, but a deletion
neither crosses nor removes a comma (`splitOn_preprocess`).  The main statement is
`convert_separately`: each voice is converted from its own segment of the source, whatever the other
segments hold. -/

namespace Drumline

theorem Voice.convert_nil : Voice.convert [] = [] := by decide +kernel

namespace Score

/-- The segments of a source without its commands are its segments without theirs. -/
theorem splitOn_preprocess (options : Options) (source : List Char) :
    (options.preprocess source).splitOn ',' = (source.splitOn ',').map options.preprocess := by
  by_cases hComma : ',' ∈ source
  · obtain ⟨before, after, hSource, hBefore⟩ := List.eq_append_cons_of_mem hComma
    have hLength : after.length < source.length := by simp [hSource]; omega
    have hDeleted : ',' ∉ options.preprocess before := fun h =>
      hBefore (Options.mem_of_mem_preprocess h)
    rw [hSource, Options.preprocess_append_comma, List.splitOn_append_cons_self,
      List.splitOn_append_cons_self, List.splitOn_eq_singleton hDeleted,
      List.splitOn_eq_singleton hBefore, splitOn_preprocess options, List.map_append,
      List.map_singleton]
  · have hDeleted : ',' ∉ options.preprocess source := fun h =>
      hComma (Options.mem_of_mem_preprocess h)
    rw [List.splitOn_eq_singleton hDeleted, List.splitOn_eq_singleton hComma, List.map_singleton]
  termination_by source.length

/-- The only warning about a source is that it has voices which the player does not take. -/
theorem warnings_events (options : Options) (source : List Char) :
    (events options source).filter (·.level = .warn) =
      if 3 < (source.splitOn ',').length then
        [.surplusVoices ((source.splitOn ',').length - 3) 3]
      else [] := by
  have hVoices : ((ofSource (options.preprocess source)).toList.flatMap Voice.events).filter
      (·.level = .warn) = [] := by
    rw [List.filter_eq_nil_iff]
    intro e he
    obtain ⟨voice, -, hEvent⟩ := List.mem_flatMap.mp he
    simpa using Voice.level_ne_warn hEvent
  have hSurplus : surplus (options.preprocess source) = (source.splitOn ',').length - 3 := by
    rw [surplus, segments, splitOn_preprocess, List.length_map]
    rfl
  simp only [events, List.filter_append, hVoices, hSurplus, List.append_nil]
  by_cases h : 3 < (source.splitOn ',').length
  · rw [if_neg (Nat.sub_ne_zero_of_lt h), if_pos h]
    rfl
  · rw [if_pos (Nat.sub_eq_zero_of_le (Nat.not_lt.mp h)), if_neg h]
    rfl

/-- The voices of a converted score are the first three segments, and empty where there is none. -/
theorem toList_convert (options : Options) (source : List Char) :
    (convert options source).toList = (List.range 3).map fun i =>
      Voice.convert ((((options.preprocess source).splitOn ',')[i]?).getD []) := by
  apply List.ext_getElem
  · rw [Vector.length_toList, List.length_map, List.length_range, voiceLimit]
  · intro i hi hi'
    simp [convert, ofSource, segments]

/-- The commands can as well be deleted from each segment of the source on its own. -/
theorem toList_convert_segments (options : Options) (source : List Char) :
    (convert options source).toList = (List.range 3).map fun i =>
      ((source.splitOn ',')[i]?).elim [] fun s => Voice.convert (options.preprocess s) := by
  rw [toList_convert]
  refine List.map_congr_left fun i _ => ?_
  rw [splitOn_preprocess, List.getElem?_map]
  cases (source.splitOn ',')[i]? with
  | none => exact Voice.convert_nil
  | some segment => rfl

/-- The player gets three voices.  Each is the conversion of its own segment of the source, without
the commands that the options delete, and a voice without a segment is empty; the source is warned
about exactly if it has more segments than voices.  So the other segments, and all text behind the
third comma, have no part in a voice. -/
theorem convert_separately (options : Options) (source : List Char) :
    (convert options source).toList = (List.range 3).map (fun i =>
        ((source.splitOn ',')[i]?).elim [] fun s => Voice.convert (options.preprocess s)) ∧
      (events options source).filter (·.level = .warn) =
        (if 3 < (source.splitOn ',').length then
          [.surplusVoices ((source.splitOn ',').length - 3) 3]
        else []) ∧
      ∀ (other : List Char) (i : Nat), (other.splitOn ',')[i]? = (source.splitOn ',')[i]? →
        (convert options other).toList[i]? = (convert options source).toList[i]? := by
  refine ⟨toList_convert_segments options source, warnings_events options source, ?_⟩
  intro other i hSegment
  rw [toList_convert_segments, toList_convert_segments, List.getElem?_map, List.getElem?_map]
  by_cases hVoice : i < 3
  · rw [List.getElem?_range hVoice, Option.map_some, Option.map_some, hSegment]
  · rw [List.getElem?_eq_none (by simpa using hVoice)]
    rfl

/-- Two sources that have their second segments in common, and nothing else: one with a segment more
than there are voices, and one with a segment less. -/
theorem convert_separately_second :
    let source := "v1c8,>t2d,e,f".toList
    let other := "o1T9,>t2d".toList
    (other.splitOn ',')[1]? = (source.splitOn ',')[1]? ∧
      (convert ⟨true, true⟩ other).toList[1]? = (convert ⟨true, true⟩ source).toList[1]? ∧
      (convert ⟨true, true⟩ source).toList = ["l8n48".toList, "l4n62".toList, "l4n52".toList] ∧
      (convert ⟨true, true⟩ other).toList = [[], "l4n62".toList, []] ∧
      ((events ⟨true, true⟩ source).filter (·.level = .warn)).map Event.message =
        ["ignoring 1 voice(s) beyond the first 3".toList] ∧
      (events ⟨true, true⟩ other).filter (·.level = .warn) = [] := by
  intro source other
  have hSegment : (other.splitOn ',')[1]? = (source.splitOn ',')[1]? := by decide +kernel
  obtain ⟨hVoices, hWarning, hSame⟩ := convert_separately ⟨true, true⟩ source
  obtain ⟨hVoices', hWarning', -⟩ := convert_separately ⟨true, true⟩ other
  refine ⟨hSegment, hSame other 1 hSegment, hVoices.trans ?_, hVoices'.trans ?_, ?_,
    hWarning'.trans ?_⟩
  · decide +kernel
  · decide +kernel
  · rw [hWarning]
    decide +kernel
  · decide +kernel

end Score

end Drumline
