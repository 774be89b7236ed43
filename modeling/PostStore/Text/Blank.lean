/-!
# Blank characters

The characters with the Unicode property of white space, and cutting them off the ends of a text.
-/

namespace PostStore.Text

/-- Whether a character is white space in the sense of Unicode. -/
def isBlank (c : Char) : Bool :=
  ('\t' ≤ c && c ≤ '\r') || c = ' ' || c = '\x85' || c = '\xa0' || c = '\u1680' ||
    ('\u2000' ≤ c && c ≤ '\u200a') || c = '\u2028' || c = '\u2029' || c = '\u202f' ||
    c = '\u205f' || c = '\u3000'

/-- Everything from the first character that is not blank. -/
def trimStart (text : List Char) : List Char := text.dropWhile isBlank

/-- The text without the blank characters at either end. -/
def trim (text : List Char) : List Char := (trimStart (trimStart text).reverse).reverse

/-- What `trimStart` keeps does not start with a blank. -/
theorem isBlank_head_trimStart {text rest : List Char} {c : Char}
    (h : trimStart text = c :: rest) : isBlank c = false := by
  have := List.head?_dropWhile_not (p := isBlank) text
  unfold trimStart at h
  simpa [h] using this

end PostStore.Text
