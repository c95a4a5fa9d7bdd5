import Drumline.Proofs.Json.RoundTrip
import Drumline.Proofs.Score
import Drumline.Proofs.Voice.Output

/-! The renderings of a converted score.  Its voices are written in few characters, so that neither
rendering needs an escape.  The main statement is `convert_faithful`, which says what the voices of
a converted score look like and that both renderings give them back. -/

namespace Drumline.Score

open Voice (alphabet output)

variable {options : Options} {source voice : List Char}

theorem eq_convert_of_getElem? {i : Nat} (h : (convert options source).toList[i]? = some voice) :
    voice = Voice.convert ((((options.preprocess source).splitOn ',')[i]?).getD []) := by
  rw [toList_convert, List.getElem?_map, Option.map_eq_some_iff] at h
  obtain ⟨j, hRange, rfl⟩ := h
  obtain ⟨-, rfl⟩ := List.getElem?_eq_some_iff.mp hRange
  rw [List.getElem_range]

theorem exists_convert_of_mem (h : voice ∈ (convert options source).toList) :
    ∃ segment, voice = Voice.convert segment := by
  obtain ⟨i, hVoice⟩ := List.mem_iff_getElem?.mp h
  exact ⟨_, eq_convert_of_getElem? hVoice⟩

theorem mem_alphabet_of_mem_convert (h : voice ∈ (convert options source).toList) :
    ∀ c ∈ voice, c ∈ alphabet := by
  obtain ⟨segment, rfl⟩ := exists_convert_of_mem h
  exact fun _ => Voice.mem_alphabet_of_mem_convert

/-- The lines of the text of a score are its voices. -/
theorem splitOn_render {score : Score} (h : ∀ voice ∈ score.toList, '\n' ∉ voice) :
    score.render.splitOn '\n' = score.toList := by
  refine List.splitOn_intercalate '\n' h ?_
  rw [← List.length_pos_iff, Vector.length_toList]
  decide

theorem quote_eq (h : ∀ c ∈ voice, Json.escape c = [c]) :
    Json.quote voice = '"' :: voice ++ ['"'] := by
  rw [Json.quote, List.flatMap_congr h, List.flatMap_singleton']

/-- The JSON document of a score without characters to escape. -/
theorem render_toJson {score : Score}
    (h : ∀ voice ∈ score.toList, ∀ c ∈ voice, Json.escape c = [c]) :
    score.toJson.render = "\x7b\n  \"voices\": [\n    \"".toList ++
      List.intercalate "\",\n    \"".toList score.toList ++ "\"\n  ]\n\x7d".toList := by
  obtain ⟨a, b, c, hVoices⟩ : ∃ a b c, score.toList = [a, b, c] :=
    List.length_eq_three.mp score.length_toList
  have hQuote : ∀ voice ∈ [a, b, c], Json.quote voice = '"' :: voice ++ ['"'] := fun voice hVoice =>
    quote_eq (h voice (hVoices ▸ hVoice))
  have hA := hQuote a (by simp)
  have hB := hQuote b (by simp)
  have hC := hQuote c (by simp)
  have hKey : Json.quote ['v', 'o', 'i', 'c', 'e', 's'] =
      ['"', 'v', 'o', 'i', 'c', 'e', 's', '"'] := by decide
  simp [toJson, hVoices, Json.render, Json.renderAt, Json.renderItems, Json.renderFields,
    Json.newline, hA, hB, hC, hKey, List.intercalate_cons_cons, List.replicate]

theorem hasIntegers_toJson (score : Score) : score.toJson.HasIntegers := by
  refine .obj fun field hField => ?_
  obtain rfl := List.mem_singleton.mp hField
  refine .arr fun item hItem => ?_
  obtain ⟨voice, -, rfl⟩ := List.mem_map.mp hItem
  exact .str voice

/-- Each of the three voices of a converted score is a sequence of pieces.  It is empty exactly if
all tokens of its segment set the octave, where the segments stand between the commas of the source
without its commands.  No such token, and no character that a rendering would have to escape or
could take for its own, is in a voice; so the lines of the text are the voices, and the JSON
document has each voice as it is and reads back as these voices. -/
theorem convert_faithful (options : Options) (source : List Char) :
    let score := convert options source
    score.toList.length = 3 ∧
    (∀ (i : Nat) (voice : List Char), score.toList[i]? = some voice → voice ∈ output.matches' ∧
      (voice = [] ↔ ∀ x ∈ Lexeme.tokenize
        ((((options.preprocess source).splitOn ',')[i]?).getD []), x.token.isOctave = true)) ∧
    (∀ voice ∈ score.toList, (∀ x ∈ Lexeme.tokenize voice, x.token.isOctave = false) ∧
      ∀ c ∈ voice, Text.isBlank c = false ∧ 0x20 < c.toNat ∧ c.toNat < 0x7F ∧
        c ∉ ['o', '<', '>', ',', '"', '\\']) ∧
    score.render.splitOn '\n' = score.toList ∧
    score.toJson.render = "\x7b\n  \"voices\": [\n    \"".toList ++
      List.intercalate "\",\n    \"".toList score.toList ++ "\"\n  ]\n\x7d".toList ∧
    Json.parse score.toJson.render =
      .ok (.obj [("voices".toList, .arr (score.toList.map .str))]) := by
  intro score
  have hChars : ∀ voice ∈ score.toList, ∀ c ∈ voice, c ∈ alphabet :=
    fun _ => mem_alphabet_of_mem_convert
  have hPlain : alphabet.all (fun c => Text.isBlank c = false ∧ 0x20 < c.toNat ∧ c.toNat < 0x7F ∧
      c ∉ ['o', '<', '>', ',', '"', '\\']) = true := by decide
  refine ⟨score.length_toList, ?_, ?_, ?_, ?_, ?_⟩
  · intro i voice hVoice
    rw [eq_convert_of_getElem? hVoice]
    exact ⟨Voice.convert_mem_output _, Voice.convert_eq_nil_iff _⟩
  · intro voice hVoice
    refine ⟨?_, fun c hc =>
      of_decide_eq_true (List.all_eq_true.mp hPlain c (hChars voice hVoice c hc))⟩
    obtain ⟨segment, rfl⟩ := exists_convert_of_mem hVoice
    exact fun x => Voice.isOctave_eq_false_of_mem_tokenize
  · refine splitOn_render fun voice hVoice hBreak => ?_
    exact absurd (hChars voice hVoice _ hBreak) (by decide)
  · have hEscape : alphabet.all (fun c => Json.escape c = [c]) = true := by decide
    exact render_toJson fun voice hVoice c hc =>
      of_decide_eq_true (List.all_eq_true.mp hEscape c (hChars voice hVoice c hc))
  · exact Json.parse_render (hasIntegers_toJson score)

/-- A source whose second segment only sets the octave when the tempo command is deleted. -/
theorem convert_faithful_octave :
    let score := convert ⟨false, true⟩ "o2a&c,t9o5>,v7n-".toList
    score.toList = ["l4n64&r".toList, [], "v7".toList] ∧
      (∀ x ∈ Lexeme.tokenize "o5>".toList, x.token.isOctave = true) ∧
      score.render.splitOn '\n' = ["l4n64&r".toList, [], "v7".toList] ∧
      Json.parse score.toJson.render = .ok (.obj [("voices".toList,
        .arr [.str "l4n64&r".toList, .str [], .str "v7".toList])]) := by
  intro score
  obtain ⟨-, hVoices, -, hText, -, hJson⟩ :=
    convert_faithful ⟨false, true⟩ "o2a&c,t9o5>,v7n-".toList
  have hScore : score.toList = ["l4n64&r".toList, [], "v7".toList] := by decide +kernel
  have hSegment : ((⟨false, true⟩ : Options).preprocess "o2a&c,t9o5>,v7n-".toList).splitOn ',' =
      ["o2a&c".toList, "o5>".toList, "v7n-".toList] := by decide +kernel
  have hEmpty := (hVoices 1 [] (congrArg (·[1]?) hScore)).2.mp rfl
  rw [hSegment] at hEmpty
  refine ⟨hScore, hEmpty, hText.trans hScore, hJson.trans ?_⟩
  rw [hScore]
  rfl

end Drumline.Score
