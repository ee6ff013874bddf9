import Scripting.State.Lookup
import Std.Data.TreeSet

/-!
Which classes are still alive.

A mortal class lives as long as something holds it: an object of the class, or an object that stands
for it. Objects and slots live by the same rule. Links from a class to its base, and from a native
function to the class it requires, hold nothing. Things that hold each other in a circle stay alive,
even if nothing else holds them.

The life of a class is settled only when it matters, that is before something is looked up through
it. What is not held any more can never be held again, so a class that is found without a holder has
ended its life, whenever that was.
-/

namespace Scripting.State

/-- What a thing holds directly. -/
def heldBy (s : State) : Node → List Node
  | .object o =>
    let object := s.object o
    object.classId.toList.map .class ++ object.payload.nodes ++
      object.members.entries.map (fun m => .slot m.2)
  | .slot i => (s.slot i).value.nodes
  | .class c => (s.classInfo c).methods.entries.map fun m => .object m.2

/-- Holds some things, besides those that are held already. -/
def hold (s : State) (nodes : List Node) : State :=
  { s with held := nodes.filter (!s.held.contains ·) ++ s.held }

/-- The classes that are kept. -/
def keptClasses (s : State) : List ClassId :=
  let mortal := Std.TreeSet.ofList (s.mortal.map (·.index))
  ((List.range s.classes.size).map ClassId.mk).filter fun c =>
    (s.classInfo c).alive && !mortal.contains c.index

/-- What is held without anything else in the state holding it. -/
def roots (s : State) : List Node :=
  s.held ++ s.frames.flatMap (fun f => [.object f.this, .object f.scope]) ++
    [.object s.global, .object s.globalThis] ++ s.keptClasses.map .class

def nodeCount (s : State) : Nat :=
  s.objects.size + s.slots.size + s.classes.size

/-- A number of its own for every thing. -/
def nodeNumber (s : State) : Node → Nat
  | .object o => o.index
  | .slot i => s.objects.size + i.index
  | .class c => s.objects.size + s.slots.size + c.index

/-- Things that were found: the numbers of all of them, and those found last. -/
structure Found where
  seen : Std.TreeSet Nat := ∅
  front : List Node := []

/-- Adds a thing, if it is new. -/
def Found.add (s : State) (found : Found) (node : Node) : Found :=
  let number := s.nodeNumber node
  if found.seen.contains number then found
  else ⟨found.seen.insert number, node :: found.front⟩

/-- Goes one link further from the things found last. -/
def Found.next (s : State) (found : Found) : Found :=
  found.front.foldl (fun found node => (s.heldBy node).foldl (Found.add s) found)
    { found with front := [] }

/-- The goals that are not found up to `n` links away. -/
def unreachedUpTo (s : State) : Nat → Found → List Node → List Node
  | 0, _, goals => goals
  | n + 1, found, goals =>
    let goals := goals.filter fun goal => !found.seen.contains (s.nodeNumber goal)
    if goals.isEmpty || found.front.isEmpty then goals
    else s.unreachedUpTo n (found.next s) goals

/-- The goals to which no chain of holders leads from a root. -/
def unreached (s : State) (goals : List Node) : List Node :=
  s.unreachedUpTo (s.nodeCount + 2) (s.roots.foldl (Found.add s) {}) goals

def countHolds (s : State) (counts : Array Nat) (nodes : List Node) : Array Nat :=
  nodes.foldl (fun counts node => counts.modify (s.nodeNumber node) (· + 1)) counts

def allNodes (s : State) : List Node :=
  (List.range s.objects.size).map (fun i => .object ⟨i⟩) ++
    (List.range s.slots.size).map (fun i => .slot ⟨i⟩) ++
    (List.range s.classes.size).map (fun i => .class ⟨i⟩)

/-- How often each thing is held. -/
def holdCounts (s : State) : Array Nat :=
  s.allNodes.foldl (fun counts node => s.countHolds counts (s.heldBy node))
    (s.countHolds (Array.replicate s.nodeCount 0) s.roots)

/-- Takes back one hold of a thing, and adds the thing to the ended ones if it was the last. -/
def releaseHold (s : State) (released : List Node × Array Nat) (node : Node) :
    List Node × Array Nat :=
  let (ended, counts) := released
  let number := s.nodeNumber node
  let count := counts.getD number 0
  (if count = 1 then node :: ended else ended, counts.setIfInBounds number (count - 1))

/-- Takes back the holds of things whose life has ended, and of those that end by it. At most `n`
lives end. -/
def releaseUpTo (s : State) : Nat → List Node → Array Nat → Array Nat
  | 0, _, counts => counts
  | _ + 1, [], counts => counts
  | n + 1, node :: ended, counts =>
    let (ended, counts) := (s.heldBy node).foldl s.releaseHold (ended, counts)
    s.releaseUpTo n ended counts

/-- How often each thing is held when nothing more can be released. What no root leads to is then held
only by circles and by what hangs on them. -/
def remainingHolds (s : State) : Array Nat :=
  let counts := s.holdCounts
  let unheld := s.allNodes.filter fun node => counts.getD (s.nodeNumber node) 0 = 0
  s.releaseUpTo s.nodeCount unheld counts

def endLife (s : State) (c : ClassId) : State :=
  { s with classes := s.classes.modify c.index fun cls => { cls with alive := false } }

/-- The life of a class to which no root leads has ended, or a circle holds it for good. -/
def settleUnreached (counts : Array Nat) (s : State) (c : ClassId) : State :=
  let remaining := counts.getD (s.nodeNumber (.class c)) 0
  let s := { s with mortal := s.mortal.filter (· ≠ c) }
  if remaining = 0 then s.endLife c else s

/-- Settles which of some classes are alive. -/
def settleAmong (s : State) (classes : List ClassId) : State :=
  let mortal := classes.filter s.mortal.contains
  if mortal.isEmpty then s
  else
    let missing := s.unreached (mortal.map .class)
    let ended := mortal.filter (missing.contains <| .class ·)
    if ended.isEmpty then s else ended.foldl (settleUnreached s.remainingHolds) s

/-- Settles which classes are alive. -/
def settle (s : State) : State :=
  s.settleAmong s.mortal

/-- Settles which bases of a class are alive. -/
def settleLineage (s : State) (c : ClassId) : State :=
  if s.mortal.isEmpty then s else s.settleAmong (s.lineage c).tail

/-- Settles which bases of the class of an object are alive. -/
def settleObject (s : State) (o : ObjectId) : State :=
  match (s.object o).classId with
  | some c => s.settleLineage c
  | none => s

end Scripting.State
