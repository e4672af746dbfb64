/-
# Clusters of characters

A text is cut into extended grapheme clusters, the units that a reader takes for
one character.  Whether there is a boundary before a character hangs on its class
and on a little memory of what stands left of it.
-/

import WrenAnalysis.Text.ClusterClass

namespace WrenAnalysis
namespace Text

/-- What the characters left of a place say about a boundary there. -/
structure ClusterLeft where
  /-- The class of the last character; the start of the text has a boundary. -/
  last : ClusterClass := .control
  /-- An odd number of flag letters stands there. -/
  oddFlags : Bool := false
  /-- A pictograph stands there, and after it extending marks at most. -/
  pictograph : Bool := false
  /-- Such a pictograph stands there, and a joiner after it. -/
  joined : Bool := false
  /-- A consonant stands there, and after it extending marks that do not part it
  from the next one. -/
  consonant : Bool := false
  /-- One of the marks after that consonant is a linker. -/
  linked : Bool := false
  deriving DecidableEq, Repr

namespace ClusterLeft

/-- The parts of a Korean syllable follow each other in order. -/
def formSyllable : ClusterClass → ClusterClass → Bool
  | .hangulLead, .hangulLead | .hangulLead, .hangulVowel => true
  | .hangulLead, .hangulOpen | .hangulLead, .hangulClosed => true
  | .hangulOpen, .hangulVowel | .hangulOpen, .hangulTail => true
  | .hangulVowel, .hangulVowel | .hangulVowel, .hangulTail => true
  | .hangulClosed, .hangulTail | .hangulTail, .hangulTail => true
  | _, _ => false

/-- There is no boundary before a character of the class. -/
def joins (left : ClusterLeft) (next : ClusterClass) : Bool :=
  if left.last = .carriageReturn ∧ next = .lineFeed then true
  else if left.last.isBreaking || next.isBreaking then false
  else if next.isMark || left.last = .leading then true
  else
    match next with
    | .pictograph => left.joined
    | .consonant => left.linked
    | .flag => left.oddFlags
    | next => formSyllable left.last next

/-- What is left of the place behind a character of the class. -/
def push (left : ClusterLeft) (next : ClusterClass) : ClusterLeft where
  last := next
  oddFlags := next = .flag && !left.oddFlags
  pictograph := match next with
    | .pictograph => true
    | .extend | .linker | .nonJoiner => left.pictograph
    | _ => false
  joined := next = .joiner && left.pictograph
  consonant := match next with
    | .consonant => true
    | .extend | .linker | .joiner => left.consonant
    | _ => false
  linked := match next with
    | .linker => left.consonant
    | .extend | .joiner => left.linked
    | _ => false

end ClusterLeft

/-- The clusters of the text right of a place.  The first part is what belongs to
the cluster that the place is in. -/
def clustersFrom : ClusterLeft → List Char → List Char × List (List Char)
  | _, [] => ([], [])
  | left, c :: cs =>
    let next := ClusterClass.of c
    let (same, others) := clustersFrom (left.push next) cs
    if left.joins next then (c :: same, others) else ([], (c :: same) :: others)

/-- The clusters of a text. -/
def clusters (cs : List Char) : List (List Char) := (clustersFrom {} cs).2

end Text
end WrenAnalysis
