/-!
# Lines of a text

Two ways to cut a text into lines.  `lines` gives the texts between line
ends, where a line ends at a line feed and a carriage return before it belongs
to the end.  `endedLines` keeps each line's own end, where a lone carriage
return ends a line too, so that the pieces concatenate to the text.
-/

namespace SymbolIndex

namespace Text

/-- The pieces of a text between occurrences of `separator`; one more than
there are separators. -/
def splitOnChar (separator : Char) : List Char → List (List Char)
  | [] => [[]]
  | c :: rest =>
    if c = separator then [] :: splitOnChar separator rest
    else
      match splitOnChar separator rest with
      | piece :: pieces => (c :: piece) :: pieces
      | [] => [[c]]

/-- A piece without one carriage return at its end. -/
def dropReturn (piece : List Char) : List Char :=
  match piece.getLast? with
  | some '\r' => piece.dropLast
  | _ => piece

/-- The lines of a text without their ends.  Text after the last line feed is
a line of its own when it is not empty, and it keeps its carriage return. -/
def lineChars (cs : List Char) : List (List Char) :=
  let pieces := splitOnChar '\n' cs
  let ended := pieces.dropLast.map dropReturn
  match pieces.getLast? with
  | none | some [] => ended
  | some rest => ended ++ [rest]

def lines (s : String) : List String :=
  (lineChars s.toList).map String.ofList

/-- The lines of a text with their ends: line feed, carriage return, or both
in that order.  `current` holds the reversed line read so far. -/
def endedLineChars (current : List Char) : List Char → List (List Char)
  | [] => if current.isEmpty then [] else [current.reverse]
  | '\r' :: '\n' :: rest => ('\n' :: '\r' :: current).reverse :: endedLineChars [] rest
  | '\r' :: rest => ('\r' :: current).reverse :: endedLineChars [] rest
  | '\n' :: rest => ('\n' :: current).reverse :: endedLineChars [] rest
  | c :: rest => endedLineChars (c :: current) rest

def endedLines (s : String) : List String :=
  (endedLineChars [] s.toList).map String.ofList

def hasLineEnd (line : String) : Bool :=
  match line.toList.getLast? with
  | some c => c == '\n' || c == '\r'
  | none => false

/-- Of a piece at most one carriage return at its end is dropped. -/
theorem dropReturn_eq_self_or (piece : List Char) :
    dropReturn piece = piece ∨ piece = dropReturn piece ++ ['\r'] := by
  unfold dropReturn
  split
  · rename_i last
    right
    obtain ⟨init, rfl⟩ := List.getLast?_eq_some_iff.mp last
    rw [List.dropLast_concat]
  · exact .inl rfl

end Text

end SymbolIndex
