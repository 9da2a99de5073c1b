import ExpectError.Text.Bytes
import ExpectError.Tree.Kind

/-!
# Syntax trees

A node has a kind, the byte offsets at which it starts and stops, and its children in source order.
Identifiers, literals, keywords and markup text are leaves; marks leave no node.

* `preorder`: the nodes of a tree, parents in front of their children;
* `paths`: the same nodes, each with its ancestors;
* `entries`: the same nodes as rows of a table that refer to one another by their rank.
-/

namespace ExpectError

/-- A syntax node with everything below it. -/
inductive Tree where
  | node (kind : NodeKind) (start stop : Nat) (children : List Tree)
  deriving Repr, Inhabited

namespace Tree

/-- The kind of the topmost node. -/
def kind : Tree → NodeKind
  | node kind _ _ _ => kind

/-- The byte offset at which a node starts. -/
def start : Tree → Nat
  | node _ start _ _ => start

/-- The byte offset at which a node stops. -/
def stop : Tree → Nat
  | node _ _ stop _ => stop

/-- The children of a node in source order. -/
def children : Tree → List Tree
  | node _ _ _ children => children

/-- A node without children. -/
def leaf (kind : NodeKind) (start stop : Nat) : Tree :=
  node kind start stop []

mutual

/-- The nodes of a tree, parents in front of their children. -/
def preorder : Tree → List Tree
  | node kind start stop children => node kind start stop children :: preorderAll children

/-- The nodes of several trees, tree by tree. -/
def preorderAll : List Tree → List Tree
  | [] => []
  | t :: ts => preorder t ++ preorderAll ts

end

mutual

/-- The number of nodes. -/
def size : Tree → Nat
  | node _ _ _ children => 1 + sizeAll children

/-- The number of nodes of several trees. -/
def sizeAll : List Tree → Nat
  | [] => 0
  | t :: ts => size t + sizeAll ts

end

/-- A node and its ancestors, the nearest first. -/
structure Path where
  node : Tree
  ancestors : List Tree
  deriving Repr, Inhabited

mutual

/-- The nodes of a tree with their ancestors, parents in front of their children. -/
def pathsBelow (ancestors : List Tree) : Tree → List Path
  | node kind start stop children =>
    { node := node kind start stop children, ancestors } ::
      pathsBelowAll (node kind start stop children :: ancestors) children

/-- The nodes of several sisters with their ancestors. -/
def pathsBelowAll (ancestors : List Tree) : List Tree → List Path
  | [] => []
  | t :: ts => pathsBelow ancestors t ++ pathsBelowAll ancestors ts

end

/-- The nodes of a tree with their ancestors. -/
def paths (t : Tree) : List Path :=
  pathsBelow [] t

/-- The parent of a node with the parent's ancestors. -/
def Path.parent? (p : Path) : Option Path :=
  match p.ancestors with
  | [] => none
  | parent :: ancestors => some { node := parent, ancestors }

/-! ### Display -/

mutual

/-- One line for each node, with its depth, its kind and its offsets. -/
def dump (depth : Nat) : Tree → List String
  | node kind start stop children =>
    s!"{depth} {kind.name} [{start}..{stop}]" :: dumpAll (depth + 1) children

/-- One line for each node of several sisters. -/
def dumpAll (depth : Nat) : List Tree → List String
  | [] => []
  | t :: ts => dump depth t ++ dumpAll depth ts

end

/-! ### Ranks -/

/-- A node in a table of all nodes, with its parent and its children as places in the table. -/
structure Entry where
  node : Tree
  parent : Option Nat
  children : List Nat

/-- The ranks of sisters, the first of which has rank `rank`. -/
def ranksFrom (rank : Nat) : List Tree → List Nat
  | [] => []
  | t :: ts => rank :: ranksFrom (rank + t.size) ts

mutual

/-- The table of a tree whose root has rank `rank`. -/
def entriesFrom (parent : Option Nat) (rank : Nat) : Tree → List Entry
  | node kind start stop children =>
    { node := node kind start stop children
      parent
      children := ranksFrom (rank + 1) children } ::
      entriesFromAll rank (rank + 1) children

/-- The tables of sisters, the first of which has rank `rank`. -/
def entriesFromAll (parent rank : Nat) : List Tree → List Entry
  | [] => []
  | t :: ts => entriesFrom (some parent) rank t ++ entriesFromAll parent (rank + t.size) ts

end

/-- The table of all nodes; a node's place is its rank in `preorder`. -/
def entries (t : Tree) : List Entry :=
  entriesFrom none 0 t

/-- The text that a node covers. -/
def textOf (text : List Char) (t : Tree) : List Char :=
  (Text.slice? t.start t.stop text).getD []

end Tree

end ExpectError
