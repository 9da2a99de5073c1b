import ExpectError.Tree.Basic

/-!
# Arenas

While a text is being read, its nodes are kept in one list, the arena, and refer to one another by
their places in it. A node is added behind its children, so that what has been read in vain can be
dropped again from the end of the list. Parents are entered once, when the whole text has been read.

* `addNode`: one more node;
* `linkParents?`: enters the parents of all nodes below a given one;
* `preorder?`: the places below a given one, parents in front of their children;
* `visits?`, `dump?`: the same places in the order in which they are shown.

The last three go along child lists, whatever these hold. A walk that makes more steps than it is
allowed has no answer.
-/

namespace ExpectError

/-- A node with the places of its parent and of its children. -/
structure Arena.Node where
  kind : NodeKind
  start : Nat
  stop : Nat
  parent : Option Nat := none
  children : List Nat
  deriving DecidableEq, Repr

/-- The nodes of a text, each at its place. -/
abbrev Arena := List Arena.Node

namespace Arena

/-- Adds a node without a parent, and says at which place it is. -/
def addNode (arena : Arena) (kind : NodeKind) (start stop : Nat) (children : List Nat) :
    Nat × Arena :=
  (arena.length, arena ++ [{ kind := kind, start, stop, children }])

/-- The parent that has been entered for the node at a place. -/
def parentOf? (arena : Arena) (place : Nat) : Option Nat :=
  arena[place]?.bind (·.parent)

/-- The children of the node at a place. -/
def childrenOf (arena : Arena) (place : Nat) : List Nat :=
  (arena[place]?.map (·.children)).getD []

/-! ### Parents -/

/-- Enters the parent of the node at a place. -/
def setParent (parent : Nat) (arena : Arena) (place : Nat) : Arena :=
  arena.modify place fun node => { node with parent := some parent }

/-- Enters the parents of all nodes below those on a stack, at most `steps` of which are looked at.
The children of a node come on the stack one after the other. -/
def linkFrom : Nat → List Nat → Arena → Option Arena
  | _, [], arena => some arena
  | 0, _ :: _, _ => none
  | steps + 1, place :: stack, arena =>
    match arena[place]? with
    | none => linkFrom steps stack arena
    | some node =>
      let children := node.children.filter (· < arena.length)
      linkFrom steps (children.reverse ++ stack) (children.foldl (setParent place) arena)

/-- Enters the parents of all nodes below the one at a place. -/
def linkParents? (arena : Arena) (root : Nat) : Option Arena :=
  linkFrom (arena.length + 1) [root] arena

/-! ### Walks -/

/-- The places on a stack and those below them, parents in front of their children, at most `steps`
of which are looked at. -/
def preorderFrom (arena : Arena) : Nat → List Nat → Option (List Nat)
  | _, [] => some []
  | 0, _ :: _ => none
  | steps + 1, place :: stack =>
    match arena[place]? with
    | none => preorderFrom arena steps stack
    | some node => do
      let order ← preorderFrom arena steps (node.children ++ stack)
      return place :: order

/-- The place of a node and all places below it, parents in front of their children. -/
def preorder? (arena : Arena) (root : Nat) : Option (List Nat) :=
  arena.preorderFrom (arena.length + 1) [root]

/-- The place of a node and all places below it, each with its depth, as they are shown; no more than
`fuel` nodes lie above one another. -/
def visitsFrom (arena : Arena) : Nat → Nat → Nat → Option (List (Nat × Nat))
  | 0, _, _ => none
  | fuel + 1, depth, place =>
    match arena[place]? with
    | none => some []
    | some node => do
      let below ← node.children.mapM (visitsFrom arena fuel (depth + 1))
      return (depth, place) :: below.flatten

/-- The place of a node and all places below it, each with its depth, as they are shown. -/
def visits? (arena : Arena) (root : Nat) : Option (List (Nat × Nat)) :=
  arena.visitsFrom (arena.length + 1) 0 root

/-- The line that shows a node. -/
def lineAt (arena : Arena) (visit : Nat × Nat) : String :=
  match arena[visit.2]? with
  | none => ""
  | some node =>
    String.ofList (List.replicate (2 * visit.1) ' ') ++
      s!"{node.kind.name} [{node.start}..{node.stop}]\n"

/-- One line for each node below the one at a place, and for itself. -/
def dump? (arena : Arena) (root : Nat) : Option String := do
  let visits ← arena.visits? root
  return String.join (visits.map arena.lineAt)

end Arena

end ExpectError
