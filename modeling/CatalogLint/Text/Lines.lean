/-!
# Lines of a text

A line ends at a carriage return and line feed, at a lone carriage return or at a
lone line feed. No other character ends a line here, whatever an editor may think
of form feeds and the Unicode separators.

* `lines`: the lines of a text, without their ends. A text has at least one line.
* `unifyBreaks`: every line end becomes a line feed.
* `cut`: the parts of a text between separators.
-/

namespace CatalogLint.Text

/-- A character that ends a line, alone or as half of a pair. -/
def isBreak (c : Char) : Bool := c == '\r' || c == '\n'

/-- The lines of a text of which `line`, newest character first, has been read already. -/
def linesFrom (line : List Char) : List Char → List (List Char)
  | [] => [line.reverse]
  | '\r' :: '\n' :: rest => line.reverse :: linesFrom [] rest
  | c :: rest => if isBreak c then line.reverse :: linesFrom [] rest else linesFrom (c :: line) rest

/-- The lines of a text, without their ends. -/
def lines (cs : List Char) : List (List Char) := linesFrom [] cs

/-- `unifyBreaks` with the characters before, newest first, done already. -/
def unifyBreaksFrom (done : List Char) : List Char → List Char
  | [] => done.reverse
  | '\r' :: '\n' :: rest => unifyBreaksFrom ('\n' :: done) rest
  | c :: rest => unifyBreaksFrom ((if c = '\r' then '\n' else c) :: done) rest

/-- The text with a line feed for every line end. -/
def unifyBreaks (cs : List Char) : List Char := unifyBreaksFrom [] cs

/-- The text without the byte order mark that may open it. One mark at most is dropped. -/
def dropMark : List Char → List Char
  | '\ufeff' :: rest => rest
  | cs => cs

/-- The parts of a text of whose first part `part`, newest character first, has been read. -/
def cutFrom (separator : Char) (part : List Char) : List Char → List String
  | [] => [String.ofList part.reverse]
  | c :: rest =>
    if c = separator then String.ofList part.reverse :: cutFrom separator [] rest
    else cutFrom separator (c :: part) rest

/-- The parts of a text between separators. A text has at least one part. -/
def cut (separator : Char) (s : String) : List String := cutFrom separator [] s.toList

end CatalogLint.Text
