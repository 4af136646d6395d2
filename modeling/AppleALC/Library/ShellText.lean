import Mathlib.Data.List.Infix

/-!
# Text in a shell script

What the usual tools do with a line of text, as far as scripts rely on it: `echo` of an unquoted
variable, `cut`, `grep` for a plain text or a word, and `grep -A`.

* `words` / `echo` — the blanks of a line;
* `cutChars` / `cutField` — parts of a line;
* `grepAfter` — the lines that follow a match.

Only fixed patterns are matched; `grep` with an expression is left to its user.
-/

namespace ShellText

abbrev Line := List Char

def words (s : List Char) : List Line :=
  (s.splitOnP fun c => c == ' ' || c == '\t' || c == '\n').filter (· ≠ [])

/-- `echo $s`: the words with one blank between them. -/
def echo (s : List Char) : Line := [' '].intercalate (words s)

/-- `cut -c`: the characters of a line from one place to another, counted from one. -/
def cutChars (first last : ℕ) (s : Line) : Line := (s.drop (first - 1)).take (last - first + 1)

/-- `cut -f -d`: a field of a line.  A line without the delimiter is a field of any number. -/
def cutField (n : ℕ) (delimiter : Char) (s : Line) : Line :=
  if delimiter ∈ s then ((s.splitOn delimiter)[n - 1]?).getD [] else s

/-- `grep` for a plain text. -/
def contains (text s : Line) : Bool := decide (text <:+: s)

/-- `grep -w` in words of one character each: the text is one of them. -/
def containsWord (text : Line) (ws : List Line) : Bool := text ≠ [] ∧ text ∈ ws

/-- The loop of `grep -A`: `left` lines are still to be shown, and lines were shown before, with or
without a gap since then. -/
def grepAfterFrom (n : ℕ) (p : Line → Bool) : (left : ℕ) → (shown gap : Bool) → List Line → List Line
  | _, _, _, [] => []
  | left, shown, gap, line :: lines =>
      if p line then
        (if shown && gap then ["--".toList] else []) ++ line :: grepAfterFrom n p n true false lines
      else
        match left with
        | 0 => grepAfterFrom n p 0 shown true lines
        | left + 1 => line :: grepAfterFrom n p left shown gap lines

/-- `grep -A`: the lines that match and `n` lines after each, with a mark between groups that do not
touch. -/
def grepAfter (n : ℕ) (text : Line) (lines : List Line) : List Line :=
  grepAfterFrom n (contains text) 0 false false lines

def unlines (lines : List Line) : List Char := ['\n'].intercalate lines

end ShellText
