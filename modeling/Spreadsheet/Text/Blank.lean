/-!
# Blank characters

The characters that count as blank in cell texts, addresses and numbers: the controls that
separate lines and fields, the space, and the spaces and line separators of Unicode. Trimming takes
them off both ends of a text; squeezing leaves one space for every run of them.

* `isBlank`: membership in the table `blankRanges`; core's whitespace is part of it
  (`isBlank_of_isWhitespace`);
* `trim`, `squeeze`: on lists of characters, as every reader of this library works on them.
-/

namespace Spreadsheet.Text

/-- The blank code points, as inclusive ranges in increasing order. -/
def blankRanges : List (Nat × Nat) :=
  [(0x09, 0x0D), (0x1C, 0x20), (0x85, 0x85), (0xA0, 0xA0), (0x1680, 0x1680), (0x2000, 0x200A),
    (0x2028, 0x2029), (0x202F, 0x202F), (0x205F, 0x205F), (0x3000, 0x3000)]

/-- The character is in the table of blanks. -/
def isBlank (c : Char) : Bool :=
  blankRanges.any fun r => r.1 ≤ c.toNat && c.toNat ≤ r.2

/-- Take the blanks off the front. -/
def trimLeft (cs : List Char) : List Char := cs.dropWhile isBlank

/-- Take the blanks off both ends. -/
def trim (cs : List Char) : List Char := (trimLeft (trimLeft cs).reverse).reverse

/-- Every run of blanks becomes one space. -/
def squeeze : List Char → List Char
  | [] => []
  | c :: cs =>
    if isBlank c then
      match squeeze cs with
      | ' ' :: rest => ' ' :: rest
      | rest => ' ' :: rest
    else c :: squeeze cs

/-! ## Small laws -/

/-- Every character that core calls whitespace is blank. -/
theorem isBlank_of_isWhitespace {c : Char} (h : c.isWhitespace = true) : isBlank c = true := by
  simp only [Char.isWhitespace, Bool.or_eq_true, decide_eq_true_eq] at h
  rcases h with ((rfl | rfl) | rfl) | rfl <;> decide

@[simp] theorem trimLeft_nil : trimLeft [] = [] := rfl

@[simp] theorem trim_nil : trim [] = [] := rfl

end Spreadsheet.Text
