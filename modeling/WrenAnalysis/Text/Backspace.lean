/-
# Backspaces

A line that was typed may hold backspaces.  Each takes back the cluster of
characters typed before it.
-/

import WrenAnalysis.Text.Cluster

namespace WrenAnalysis
namespace Text

/-- A line being typed. -/
structure Typed where
  /-- The characters, the last one first. -/
  characters : List Char := []
  /-- The sizes of the clusters in bytes, the last one first.  A size is kept in one
  byte, so of a cluster of 256 bytes and more only a part is taken back. -/
  sizes : List UInt8 := []
  deriving DecidableEq, Repr

/-- The bytes of some characters. -/
def byteSize (cs : List Char) : Nat := cs.foldl (fun n c => n + c.utf8Size) 0

/-- The characters without the first ones that make up so many bytes. -/
def dropBytes : Nat → List Char → List Char
  | _, [] => []
  | 0, cs => cs
  | n, c :: cs => dropBytes (n - c.utf8Size) cs

namespace Typed

/-- One more cluster is typed. -/
def type (t : Typed) (cluster : List Char) : Typed where
  characters := cluster.reverse ++ t.characters
  sizes := (byteSize cluster).toUInt8 :: t.sizes

/-- The last cluster is taken back, if there is one. -/
def takeBack (t : Typed) : Typed :=
  match t.sizes with
  | [] => t
  | size :: sizes => { characters := dropBytes size.toNat t.characters, sizes }

/-- The next cluster of the line. -/
def next (t : Typed) (cluster : List Char) : Typed :=
  if cluster = ['\x08'] then t.takeBack else t.type cluster

end Typed

/-- A line as it is meant. -/
def applyBackspaces (line : String) : String :=
  String.ofList ((clusters line.toList).foldl Typed.next {}).characters.reverse

end Text
end WrenAnalysis
