import Drumline.Options
import Drumline.Proofs.Command

/-! The deletions in a source.  They add no character (`mem_of_mem_preprocess`), and they treat the
texts before and behind a comma one by one (`preprocess_append_comma`): a comma is in no command,
and no command goes on behind one. -/

namespace Drumline.Options

variable {p : Char → Bool} {c : Char} {text : List Char}

theorem mem_of_mem_deleteCommands (h : c ∈ deleteCommands p text) : c ∈ text := by
  obtain ⟨piece, hPiece, hc⟩ := List.mem_flatMap.mp h
  rw [← Piece.flatMap_text_ofText p text]
  cases piece with
  | command letter digits => cases hc
  | other d => exact List.mem_flatMap.mpr ⟨_, hPiece, hc⟩

theorem mem_of_mem_preprocess {o : Options} (h : c ∈ o.preprocess text) : c ∈ text := by
  unfold preprocess at h
  split at h <;> split at h
  · exact mem_of_mem_deleteCommands (mem_of_mem_deleteCommands h)
  · exact mem_of_mem_deleteCommands h
  · exact mem_of_mem_deleteCommands h
  · exact h

theorem preprocess_append_comma (o : Options) (before after : List Char) :
    o.preprocess (before ++ ',' :: after) = o.preprocess before ++ ',' :: o.preprocess after := by
  have hDelete : ∀ p : Char → Bool, p ',' = false → ∀ before after : List Char,
      deleteCommands p (before ++ ',' :: after) =
        deleteCommands p before ++ ',' :: deleteCommands p after :=
    fun p hp => replaceCommands_append_cons hp (by decide)
  simp only [preprocess]
  split <;> split <;>
    simp only [hDelete isVolumeLetter rfl, hDelete isTempoLetter rfl]

end Drumline.Options
