import FreshNames.Charset

/-!
# Output

Text is written to a sink.  Behind most sinks are bytes, and the sink has a character set; lines of
names are written to them in UTF-8, whatever the character set is.

* `Sink.write` - writes text in the character set of the sink;
* `Sink.writeLines` - writes lines in UTF-8;
* `lines` - the text of lines, each with a line feed behind it.
-/

set_option autoImplicit false

namespace FreshNames

/-- The text of lines. -/
def lines (ls : List Text) : Text := ls.flatMap (· ++ ['\n'])

/-- Where text is written to. -/
inductive Sink
  /-- Text that is kept as it is. -/
  | plain (written : Text)
  /-- Bytes, the character set for text, and whether its mark has been written. -/
  | encoded (charset : Charset) (isMarked : Bool) (written : Bytes)

namespace Sink

/-- Writes text.  The first writing in a character set with a mark begins with the mark. -/
def write (t : Text) : Sink → Except Charset.Unencodable Sink
  | plain written => .ok (plain (written ++ t))
  | encoded charset isMarked written =>
    match charset.encode t with
    | .error u => .error u
    | .ok bytes =>
      .ok (encoded charset true (written ++ (if isMarked then [] else charset.mark) ++ bytes))

/-- Writes lines in UTF-8. -/
def writeLines (ls : List Text) : Sink → Sink
  | plain written => plain (written ++ lines ls)
  | encoded charset isMarked written =>
    encoded charset isMarked (written ++ Charset.utf8Bytes (lines ls))

end Sink

theorem lines_append (ls ms : List Text) : lines (ls ++ ms) = lines ls ++ lines ms := by
  simp [lines]

end FreshNames
