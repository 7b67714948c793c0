import DispatchTable.Failure
import DispatchTable.Text.Lines

/-!
# Contents

The content of a file is its bytes, or the reason why they cannot be read. A text is read from and
written as UTF-8. It is read as a whole or line by line; a line ends at the byte of a newline, and
each line is decoded by itself.
-/

namespace DispatchTable

/-- The bytes of a file, or why they cannot be read. -/
abbrev Content := Except FileError ByteArray

/-- The text of a content. -/
def Content.text (content : Content) : Except FileError Text :=
  match content with
  | .error cause => .error cause
  | .ok bytes =>
    match String.fromUTF8? bytes with
    | some s => .ok s.toList
    | none => .error .notUtf8

/-- The lines of a content, without their ends. -/
def Content.lines (content : Content) : Except FileError (List Text) :=
  match content with
  | .error cause => .error cause
  | .ok bytes =>
    (Text.wholeLines 10 bytes.data.toList).mapM fun line =>
      (Content.text (.ok line.toByteArray)).map Text.dropEnd

/-- The bytes of a text. -/
def Text.bytes (t : Text) : ByteArray := (String.ofList t).toUTF8

end DispatchTable
