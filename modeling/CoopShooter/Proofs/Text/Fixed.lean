import Mathlib
import CoopShooter.Proofs.Text.Utf8
import CoopShooter.Text.Fixed

/-!
A text in a field of fixed width reads as what fits of it, up to the first zero character. What was
read once fits the field, so that it is the same text however often it is written and read again.
-/

namespace CoopShooter

/-- What of a text fits in a number of bytes, up to the first zero character. -/
def shown (limit : ℕ) (text : String) : String :=
  String.ofList ((Utf8.clip limit text.toList).takeWhile (· ≠ '\x00'))

/-- Of all prefixes of a text that have at most so many bytes this is the longest. -/
def LongestFit (limit : ℕ) (text kept : List Char) : Prop :=
  kept <+: text ∧ (Utf8.encode kept).length ≤ limit ∧
    ∀ cs, cs <+: text → (Utf8.encode cs).length ≤ limit → cs <+: kept

lemma longestFit_clip (limit : ℕ) (text : List Char) :
    LongestFit limit text (Utf8.clip limit text) :=
  ⟨Utf8.clip_starts limit text, Utf8.length_encode_clip_le limit text,
    fun _ hcs hlen => Utf8.prefix_clip hcs hlen⟩

lemma shown_prefix (limit : ℕ) (text : String) : (shown limit text).toList <+: text.toList := by
  rw [shown, String.toList_ofList]
  exact (List.takeWhile_prefix _).trans (Utf8.clip_starts limit text.toList)

/-- What is shown fits, and so it is shown as it is. -/
lemma shown_shown (limit : ℕ) (text : String) :
    shown limit (shown limit text) = shown limit text := by
  have hfits :
      (Utf8.encode ((Utf8.clip limit text.toList).takeWhile (· ≠ '\x00'))).length ≤ limit :=
    (Utf8.length_encode_le_of_prefix (List.takeWhile_prefix _)).trans
      (Utf8.length_encode_clip_le limit text.toList)
  rw [shown, shown, String.toList_ofList, Utf8.clip_of_fits hfits, List.takeWhile_idem]

namespace FixedText

lemma bytes_ofString (width : ℕ) (text : String) :
    (ofString width text).bytes = Utf8.encode (Utf8.clip (width - 1) text.toList) ++
      List.replicate (width - (Utf8.encode (Utf8.clip (width - 1) text.toList)).length) 0 := by
  have hlen := Utf8.length_encode_clip_le (width - 1) text.toList
  simp only [ofString, ofBytes]
  rw [List.take_of_length_le (by omega)]

/-- **A text in a field reads as what fits of it.** -/
theorem text_ofString (width : ℕ) (text : String) :
    (ofString width text).text = shown (width - 1) text := by
  rw [FixedText.text, bytes_ofString, Utf8.takeWhile_encode, Utf8.decode_encode, shown]

end FixedText

end CoopShooter
