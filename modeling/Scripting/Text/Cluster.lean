import Scripting.Text.ClusterRole

/-!
Splitting a text into clusters, the pieces that a reader sees as one character: a letter with its
marks, a syllable, a flag, pictographs that a joiner ties together, linked consonants. A carriage return
in front of a line feed is not kept together with it: the split is made for single lines.
-/

namespace Scripting.Text

/-- What the characters read so far say about the next one. -/
structure ClusterContext where
  /-- The role of the last character. -/
  role : ClusterRole
  /-- The last character is the first half of a flag. -/
  halfFlag : Bool
  /-- Behind the last picture there are only marks that extend it. -/
  pictureOpen : Bool
  /-- The last character ties such a picture to the next one. -/
  pictureJoined : Bool
  /-- Behind the last consonant there are only marks. -/
  consonantOpen : Bool
  /-- One of these marks links the consonant to the next one. -/
  consonantLinked : Bool
deriving DecidableEq, Repr, Inhabited

namespace ClusterContext

/-- The context at the start of a text: nothing is tied to what comes. -/
def start : ClusterContext :=
  ⟨.control, false, false, false, false, false⟩

/-- The context behind one more character. -/
def next (context : ClusterContext) (c : Char) : ClusterContext :=
  let role := ClusterRole.ofChar c
  let mark := role = .extending || role = .joiner
  let linking := mark && c ≠ '\u200c' && context.consonantOpen
  { role
    halfFlag := role = .regional && !context.halfFlag
    pictureOpen := role = .picture || (role = .extending && context.pictureOpen)
    pictureJoined := role = .joiner && context.pictureOpen
    consonantOpen := role = .consonant || linking
    consonantLinked := linking && (context.consonantLinked || isLinker c) }

/-- Holds if a character belongs to the cluster in front of it. -/
def continues (context : ClusterContext) (c : Char) : Bool :=
  match context.role, ClusterRole.ofChar c with
  | .control, _ | _, .control => false
  | _, .extending | _, .joiner | _, .spacing | .prepended, _ => true
  | .leading, .leading | .leading, .vowel | .leading, .syllable | .leading, .closedSyllable => true
  | .syllable, .vowel | .syllable, .trailing | .vowel, .vowel | .vowel, .trailing => true
  | .closedSyllable, .trailing | .trailing, .trailing => true
  | _, .consonant => context.consonantLinked
  | _, .picture => context.pictureJoined
  | _, .regional => context.halfFlag
  | _, _ => false

end ClusterContext

/-- Splits a text, given what came before it and the cluster that is being read, from its end. -/
def clustersFrom (context : ClusterContext) (cluster : List Char) : List Char → List (List Char)
  | [] => [cluster.reverse]
  | c :: rest =>
    if context.continues c then clustersFrom (context.next c) (c :: cluster) rest
    else cluster.reverse :: clustersFrom (context.next c) [c] rest

def clusters : List Char → List (List Char)
  | [] => []
  | c :: rest => clustersFrom (ClusterContext.start.next c) [c] rest

end Scripting.Text
