/-!
# Laying out nested text

A debug text is on one line, or has each part of a compound on a line of its own, indented by
four more spaces and followed by a comma.
-/

namespace LeafFringe.Text

inductive Style where
  | oneLine
  | indented
deriving DecidableEq, Repr

/-- A text in either style, inside as many compounds as its depth. -/
abbrev Layout := Style → (depth : Nat) → String

namespace Layout

def text (s : String) : Layout := fun _ _ => s

def ofChars (s : List Char) : Layout := text (String.ofList s)

def indent (depth : Nat) : String := String.ofList (List.replicate (4 * depth) ' ')

/-- Parts between an opening and a closing text. On one line, `gap` keeps them apart from
these. -/
def compound (opening gap closing : String) (parts : List Layout) : Layout := fun style depth =>
  if parts.isEmpty then opening ++ closing
  else
    match style with
    | .oneLine =>
      opening ++ gap ++ String.intercalate ", " (parts.map fun part => part style depth) ++ gap ++
        closing
    | .indented =>
      opening ++ "\n" ++
        String.join (parts.map fun part =>
          indent (depth + 1) ++ part style (depth + 1) ++ ",\n") ++
        indent depth ++ closing

def list (parts : List Layout) : Layout := compound "[" "" "]" parts

/-- A name with one part in parentheses. -/
def wrapped (name : String) (part : Layout) : Layout := compound (name ++ "(") "" ")" [part]

/-- A name with labelled parts in braces. -/
def record (name : String) (fields : List (String × Layout)) : Layout :=
  compound (name ++ " \x7b") " " "\x7d"
    (fields.map fun (label, part) => fun style depth => label ++ ": " ++ part style depth)

/-- The text at the outermost level. -/
def render (l : Layout) (style : Style) : String := l style 0

end Layout

end LeafFringe.Text
