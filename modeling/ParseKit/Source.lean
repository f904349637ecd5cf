/-! Sources as physical lines. A line ends at a line feed, which is dropped together with one
carriage return before it. The last line may go without a terminator and is then kept whole. -/

namespace ParseKit

inductive PhysicalLine where
  | text (chars : List Char)
  /-- The bytes of the line are not UTF-8. -/
  | undecodable
  deriving DecidableEq, Repr

/-- The physical lines of an input, the first one first. -/
abbrev Source := List PhysicalLine

namespace Source

/-- The contents of a terminated line, given backwards. -/
def unterminate {α : Type} [DecidableEq α] (cr : α) (reversed : List α) : List α :=
  match reversed with
  | a :: before => if a = cr then before.reverse else reversed.reverse
  | [] => []

/-- Cuts a sequence into lines. `reversed` holds the line that is being read, backwards. -/
def cut {α : Type} [DecidableEq α] (lf cr : α) (reversed : List α) : List α → List (List α)
  | [] => if reversed.isEmpty then [] else [reversed.reverse]
  | a :: rest =>
    if a = lf then unterminate cr reversed :: cut lf cr [] rest else cut lf cr (a :: reversed) rest

def ofChars (text : List Char) : Source :=
  (cut '\n' '\r' [] text).map .text

def ofString (text : String) : Source :=
  ofChars text.toList

def decodeLine (bytes : List UInt8) : PhysicalLine :=
  match String.fromUTF8? (ByteArray.mk bytes.toArray) with
  | some text => .text text.toList
  | none => .undecodable

/-- The lines of a sequence of bytes. Each line is decoded by itself. -/
def ofBytes (bytes : List UInt8) : Source :=
  (cut 10 13 [] bytes).map decodeLine

end Source

end ParseKit
