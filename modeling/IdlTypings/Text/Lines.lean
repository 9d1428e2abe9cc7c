/-!
# Lines of text

Text and its lines.
-/

namespace IdlTypings.Text

/-- The text before the first line feed, and the pieces behind each line feed. -/
def splitBreaks : List Char → List Char × List (List Char)
  | [] => ([], [])
  | c :: rest =>
      let (first, others) := splitBreaks rest
      if c = '\n' then ([], first :: others) else (c :: first, others)

/-- The pieces between line feeds. There is always one. -/
def pieces (text : List Char) : List (List Char) :=
  (splitBreaks text).1 :: (splitBreaks text).2

def dropReturn (line : List Char) : List Char :=
  if line.getLast? = some '\r' then line.dropLast else line

/-- The lines of a text: each ends before a line feed or a carriage return with a line feed, and
the last one only counts if it is not empty. -/
def lines (text : List Char) : List (List Char) :=
  let pieces := pieces text
  let last := pieces.getLastD []
  pieces.dropLast.map dropReturn ++ if last.isEmpty then [] else [last]

end IdlTypings.Text
