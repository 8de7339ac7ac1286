/-!
# Blank characters

The white space of Unicode, and texts that neither start nor end with it.
-/

namespace DalvikFacts.Text

/-- Whether a character is white space in Unicode. -/
def isBlank (c : Char) : Bool :=
  ('\t' ≤ c && c ≤ '\r') || c == ' ' || c == '\u0085' || c == '\u00a0' || c == '\u1680' ||
    ('\u2000' ≤ c && c ≤ '\u200a') || c == '\u2028' || c == '\u2029' || c == '\u202f' ||
    c == '\u205f' || c == '\u3000'

/-- Whether a text neither starts nor ends with a blank; the empty text does neither. -/
def isTrimmed (text : String) : Bool :=
  let chars := text.toList
  !(chars.head?.any isBlank) && !(chars.getLast?.any isBlank)

theorem isBlank_of_isWhitespace {c : Char} (h : c.isWhitespace = true) : isBlank c = true := by
  simp only [Char.isWhitespace, Bool.or_eq_true, decide_eq_true_eq] at h
  rcases h with ((h | h) | h) | h <;> subst h <;> decide

end DalvikFacts.Text
