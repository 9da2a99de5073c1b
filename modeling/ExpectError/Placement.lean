import ExpectError.SourceFile

/-!
# Where an annotation goes

A comment that is to stand in front of a syntax node cannot stand everywhere. In markup it climbs
out of names, attributes and tags, and between tags it becomes a sibling of its own. Elsewhere it is
a line comment, which must not separate a node from a keyword that has to share its line.

* `wholeName`, `tagOrElement`: the node that stands for a part of a tag;
* `hoist`: the construct to annotate in place of a node behind such a keyword;
* `placementOf?`: the decision.
-/

namespace ExpectError

open ExpectError.Tree (Path)

/-- How an annotation is put in front of a node. -/
inductive Placement where
  /-- A line comment in front of the node. -/
  | leadingComment (anchor : Path)
  /-- A comment of its own among the children of an element, in front of the node. -/
  | markupSibling (anchor : Path)

namespace Placement

/-- The node in front of which the annotation goes. -/
def anchor : Placement → Tree
  | leadingComment anchor => anchor.node
  | markupSibling anchor => anchor.node

/-- The kind of a node's parent. -/
def parentKind? (path : Path) : Option NodeKind :=
  path.ancestors.head?.map Tree.kind

/-- Is the kind of a node's parent in a list? -/
def parentIsAny (kinds : List NodeKind) (path : Path) : Bool :=
  (parentKind? path).any kinds.contains

/-- Is this an element or a fragment? -/
def isElement (kind : NodeKind) : Bool :=
  [NodeKind.jsxElement, .jsxFragment].contains kind

/-- Can this stand between the tags of an element? -/
def isMarkupChild (kind : NodeKind) : Bool :=
  isElement kind || [NodeKind.jsxExpression, .token .jsxText].contains kind

/-! ### Out of names and tags -/

/-- The topmost of a node and those of its nearest ancestors that pass a test without a gap. -/
def climbWhile (test : NodeKind → Bool) (node : Tree) : List Tree → Path
  | [] => { node, ancestors := [] }
  | parent :: rest =>
    if test parent.kind then climbWhile test parent rest
    else { node, ancestors := parent :: rest }

/-- The nearest of a node and its ancestors that passes a test. -/
def climbTo? (test : NodeKind → Bool) (node : Tree) : List Tree → Option Path
  | [] => if test node.kind then some { node, ancestors := [] } else none
  | parent :: rest =>
    if test node.kind then some { node, ancestors := parent :: rest }
    else climbTo? test parent rest

/-- From a part of the dotted or namespaced name of a tag or an attribute to the whole name. -/
def wholeName (path : Path) : Path :=
  let name := climbWhile [NodeKind.propertyAccessExpression, .jsxNamespacedName].contains
    path.node path.ancestors
  if parentIsAny [.jsxOpeningElement, .jsxClosingElement, .jsxAttribute] name then name else path

/-- From a part of an opening tag or of an attribute to the tag or the attribute: no comment can
stand between `<` and the name of the tag, nor between the name of an attribute and its value. -/
def tagOrAttribute (path : Path) : Path :=
  if parentIsAny [.jsxOpeningElement, .jsxAttribute] path then path.parent?.getD path else path

/-- From a closing tag, or a tag of a fragment, to the element or fragment. -/
def wholeElement? (path : Path) : Option Path :=
  if [NodeKind.jsxClosingElement, .jsxOpeningFragment, .jsxClosingFragment].contains path.node.kind
      || parentIsAny [.jsxClosingElement] path then
    climbTo? isElement path.node path.ancestors
  else some path

/-! ### Past keywords -/

/-- The keywords whose construct changes its meaning if the next token is on another line. -/
def lineSensitiveWords : List TokenKind :=
  [.returnKeyword, .throwKeyword, .yieldKeyword, .breakKeyword, .continueKeyword, .privateKeyword,
   .publicKeyword, .protectedKeyword, .readonlyKeyword, .overrideKeyword, .declareKeyword,
   .abstractKeyword, .accessorKeyword, .asyncKeyword, .typeKeyword, .interfaceKeyword,
   .namespaceKeyword, .moduleKeyword, .assertsKeyword]

/-- The keyword directly in front of an offset, if it must share its line with what follows. -/
def lineSensitiveBefore? (file : SourceFile) (offset : Nat) : Option Grammar.Token :=
  (file.tokenBefore? offset).filter fun token => lineSensitiveWords.contains token.kind

/-- Climbs from an anchor behind a keyword to the nearest ancestor that starts at the keyword or in
front of it, and on from there if that ancestor follows such a keyword too. The file as a whole is
never an anchor. -/
def hoistPast (file : SourceFile) (anchor : Path) (keyword : Grammar.Token) : List Tree → Path
  | [] => anchor
  | parent :: rest =>
    if parent.kind = .sourceFile then anchor
    else if parent.start ≤ keyword.start then
      match lineSensitiveBefore? file parent.start with
      | none => { node := parent, ancestors := rest }
      | some next => hoistPast file { node := parent, ancestors := rest } next rest
    else hoistPast file anchor keyword rest

/-- The node in front of which a line comment goes, so that it does not part a keyword from its
line. -/
def hoist (file : SourceFile) (path : Path) : Path :=
  match lineSensitiveBefore? file path.node.start with
  | none => path
  | some keyword => hoistPast file path keyword path.ancestors

end Placement

open Placement in
/-- Where the annotation of a node goes. -/
def placementOf? (file : SourceFile) (path : Path) : Option Placement := do
  let path ← wholeElement? (tagOrAttribute (wholeName path))
  match path.parent? with
  | some parent =>
    if isElement parent.node.kind then
      if isMarkupChild path.node.kind then return .markupSibling path
      if (parentKind? parent).any isElement then return .markupSibling parent
  | none => pure ()
  return .leadingComment (hoist file path)

end ExpectError
