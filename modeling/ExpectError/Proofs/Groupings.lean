import ExpectError.Grammar.Expressions
import ExpectError.Proofs.OperatorChains

/-!
# Groupings of names joined by operators

A chain of names can be grouped in many ways, each of which is a binary tree over the names in their
order. One of them respects how tightly the operators bind: no operator in an operand of another one
binds looser, and of those that bind equally tight the last one is outermost, but for powers the first
one.

* `Grouping`: a binary tree over a chain, and `Grouping.tree`, the syntax tree that stands for it;
* `Grouping.Respects`: the operators group as tightly as they bind;
* `Grouping.Groups.unique`: there is at most one such grouping of a chain.
-/

namespace ExpectError

open Text

/-! ### How tightly operators bind -/

namespace Operator

/-- How tightly an operator binds. -/
def tightness (operator : Operator) : ℕ :=
  Grammar.precedence operator.kind

/-- Do operators of this tightness group to the right? -/
def IsPower (operator : Operator) : Prop :=
  operator.kind = .asteriskAsterisk

theorem tightness_bounds (operator : Operator) :
    0 < operator.tightness ∧ operator.tightness ≤ 15 ∧
      (operator.tightness = 15 ↔ operator.IsPower) := by
  have hbounds : ∀ operator ∈ operators, 0 < Grammar.precedence operator.2 ∧
      Grammar.precedence operator.2 ≤ 15 ∧
        (Grammar.precedence operator.2 = 15 ↔ operator.2 = .asteriskAsterisk) := by
    decide
  exact hbounds _ operator.mem

/-- May an operator stand in the first operand of another one? -/
def InFirst (outer inner : Operator) : Prop :=
  outer.tightness < inner.tightness ∨ outer.tightness = inner.tightness ∧ ¬ outer.IsPower

/-- May an operator stand in the second operand of another one? -/
def InSecond (outer inner : Operator) : Prop :=
  outer.tightness < inner.tightness ∨ outer.tightness = inner.tightness ∧ outer.IsPower

variable {outer inner innermost : Operator}

/-- Of two operators, one is the outer one. -/
theorem not_inSecond_iff : ¬ inner.InSecond outer ↔ outer.InFirst inner := by
  have hinner := inner.tightness_bounds
  have houter := outer.tightness_bounds
  unfold InFirst InSecond
  grind

theorem InFirst.trans (h : outer.InFirst inner) (h' : inner.InFirst innermost) :
    outer.InFirst innermost := by
  have hinner := inner.tightness_bounds
  have houter := outer.tightness_bounds
  unfold InFirst at *
  grind

theorem InFirst.trans_inSecond (h : outer.InFirst inner) (h' : inner.InSecond innermost) :
    outer.InFirst innermost := by
  have hinner := inner.tightness_bounds
  have houter := outer.tightness_bounds
  unfold InFirst InSecond at *
  grind

/-- Behind an operator, its second operand goes on with those that may stand in it. -/
theorem bindsTighter_tightness_iff :
    Grammar.bindsTighter inner.kind outer.tightness = true ↔ outer.InSecond inner := by
  have hinner := inner.tightness_bounds
  have houter := outer.tightness_bounds
  unfold InSecond IsPower tightness Grammar.bindsTighter at *
  split_ifs with h <;> grind

theorem bindsTighter_zero (operator : Operator) :
    Grammar.bindsTighter operator.kind 0 = true := by
  have hbounds := operator.tightness_bounds
  unfold tightness Grammar.bindsTighter at *
  split_ifs <;> simp [hbounds]

/-- What may stand in the second operand of an operator binds tighter than what surrounds it. -/
theorem InSecond.bindsTighter {precedence : ℕ} (h : outer.InSecond inner)
    (houter : Grammar.bindsTighter outer.kind precedence = true) :
    Grammar.bindsTighter inner.kind precedence = true := by
  have hinner := inner.tightness_bounds
  have hbounds := outer.tightness_bounds
  unfold InSecond IsPower tightness Grammar.bindsTighter at *
  split_ifs at houter ⊢ <;> grind

end Operator

/-! ### Groupings -/

/-- Names joined by operators, each operator with its two operands. -/
inductive Grouping where
  | operand (name : Name)
  | joined (first : Grouping) (joint : Joint) (second : Grouping)

/-- The bytes from one operand to the next. -/
def Joint.width (joint : Joint) : ℕ :=
  joint.spacesBefore + 1 + byteLength joint.operator.chars + (joint.spacesBehind + 1)

namespace Grouping

/-- The name at the front. -/
def front : Grouping → Name
  | operand name => name
  | joined first _ _ => first.front

/-- The operators in their order, each with the name behind it. -/
def links : Grouping → List Link
  | operand _ => []
  | joined first joint second =>
    first.links ++ { joint with name := second.front } :: second.links

/-- The number of bytes. -/
def width : Grouping → ℕ
  | operand name => byteLength name.chars
  | joined first joint second => first.width + joint.width + second.width

/-- The syntax tree of a grouping that starts at an offset. The node of an operator spans from its
first operand to its second. -/
def tree (pos : ℕ) : Grouping → Tree
  | operand name => .leaf (.token .identifier) pos (pos + byteLength name.chars)
  | joined first joint second =>
    let left := first.tree pos
    let right := second.tree (pos + (first.width + joint.width))
    .node .binaryExpression left.start right.stop [left, right]

@[simp] theorem start_tree (pos : ℕ) (g : Grouping) : (g.tree pos).start = pos := by
  induction g with
  | operand name => rfl
  | joined first joint second ih => exact ih

@[simp] theorem stop_tree (pos : ℕ) (g : Grouping) : (g.tree pos).stop = pos + g.width := by
  induction g generalizing pos with
  | operand name => rfl
  | joined first joint second _ ih =>
    refine (ih (pos + (first.width + joint.width))).trans ?_
    rw [width, Nat.add_assoc]

/-- No operator stands in an operand of another one in which it may not stand. -/
def Respects : Grouping → Prop
  | operand _ => True
  | joined first joint second =>
    first.Respects ∧ second.Respects ∧
      (∀ link ∈ first.links, joint.operator.InFirst link.operator) ∧
      ∀ link ∈ second.links, joint.operator.InSecond link.operator

variable {g g' : Grouping}

theorem links_joined_ne_nil (first : Grouping) (joint : Joint) (second : Grouping) :
    (joined first joint second).links ≠ [] := by
  simp [links]

/-- In two groupings of one chain, the outermost operator of the second one is not behind that of the
first one. -/
theorem Respects.not_behind {first first' second second' : Grouping} {joint joint' : Joint}
    (h : (joined first joint second).Respects) (h' : (joined first' joint' second').Respects)
    {between : List Link} (hfirst : first'.links = first.links ++ between)
    (hsecond : { joint with name := second.front } :: second.links =
      between ++ { joint' with name := second'.front } :: second'.links) : between = [] := by
  obtain ⟨-, -, -, hinSecond⟩ := h
  obtain ⟨-, -, hinFirst, -⟩ := h'
  cases between with
  | nil => rfl
  | cons link between =>
    rw [List.cons_append, List.cons.injEq] at hsecond
    obtain ⟨rfl, hrest⟩ := hsecond
    have hjoint := hinFirst { joint with name := second.front } (by simp [hfirst])
    have hjoint' := hinSecond { joint' with name := second'.front } (by simp [hrest])
    exact absurd hjoint' (Operator.not_inSecond_iff.2 hjoint)

/-- Two groupings of one chain that respect how tightly the operators bind are the same. -/
theorem Respects.unique (h : g.Respects) (h' : g'.Respects) (hfront : g.front = g'.front)
    (hlinks : g.links = g'.links) : g = g' := by
  induction g generalizing g' with
  | operand name =>
    cases g' with
    | operand name' => exact congrArg operand hfront
    | joined first' joint' second' => exact absurd hlinks.symm (links_joined_ne_nil _ _ _)
  | joined first joint second ihFirst ihSecond =>
    cases g' with
    | operand name' => exact absurd hlinks (links_joined_ne_nil _ _ _)
    | joined first' joint' second' =>
      have hsame : first.links = first'.links ∧ ({ joint with name := second.front } : Link) ::
          second.links = { joint' with name := second'.front } :: second'.links := by
        rcases List.append_eq_append_iff.1 hlinks with ⟨between, hfirst, hsecond⟩ |
          ⟨between, hfirst, hsecond⟩
        · obtain rfl := h.not_behind h' hfirst hsecond
          exact ⟨by simpa using hfirst.symm, by simpa using hsecond⟩
        · obtain rfl := h'.not_behind h hfirst hsecond
          exact ⟨by simpa using hfirst, by simpa using hsecond.symm⟩
      obtain ⟨hfirstLinks, hsecond⟩ := hsame
      obtain ⟨hlink, hsecondLinks⟩ := List.cons.inj hsecond
      obtain ⟨hjoint, hname⟩ := Link.mk.inj hlink
      rw [ihFirst h.1 h'.1 hfront hfirstLinks, ihSecond h.2.1 h'.2.1 hname hsecondLinks, hjoint]

/-- A grouping of a chain, a name with operators and names behind it, that respects how tightly the
operators bind. -/
structure Groups (g : Grouping) (name : Name) (links : List Link) : Prop where
  front_eq : g.front = name
  links_eq : g.links = links
  respects : g.Respects

theorem Groups.unique {name : Name} {links : List Link} (h : g.Groups name links)
    (h' : g'.Groups name links) : g = g' :=
  h.respects.unique h'.respects (h.front_eq.trans h'.front_eq.symm)
    (h.links_eq.trans h'.links_eq.symm)

/-! ### The front of a chain -/

/-- A grouping of the front of a chain whose operators all bind tighter than a given precedence. The
first operator behind it could be put around the whole grouping. -/
structure IsHead (name : Name) (links : List Link) (precedence : ℕ) (g : Grouping)
    (rest : List Link) : Prop where
  front_eq : g.front = name
  links_eq : g.links ++ rest = links
  respects : g.Respects
  tighter : ∀ link ∈ g.links, Grammar.bindsTighter link.operator.kind precedence = true
  outer : ∀ link ∈ rest.head?, ∀ inner ∈ g.links, link.operator.InFirst inner.operator

theorem isHead_operand (name : Name) (links : List Link) (precedence : ℕ) :
    (operand name).IsHead name links precedence links := by
  constructor <;> simp [front, Grouping.links, Respects]

/-- Where nothing is left, it is a grouping of the whole chain. -/
theorem IsHead.groups {name : Name} {links : List Link} {precedence : ℕ}
    (h : g.IsHead name links precedence []) : g.Groups name links :=
  ⟨h.front_eq, (List.append_nil _).symm.trans h.links_eq, h.respects⟩

/-- The next operator is put around the grouping, with a second operand that goes on as far as its
operators bind tighter. -/
theorem IsHead.join {name : Name} {links rest rest' : List Link} {precedence : ℕ} {link : Link}
    {second : Grouping} (h : g.IsHead name links precedence (link :: rest))
    (htighter : Grammar.bindsTighter link.operator.kind precedence = true)
    (hsecond : second.IsHead link.name rest link.operator.tightness rest')
    (hlooser : ∀ next ∈ rest'.head?,
      Grammar.bindsTighter next.operator.kind link.operator.tightness = false) :
    (joined g link.toJoint second).IsHead name links precedence rest' := by
  have hinSecond : ∀ inner ∈ second.links, link.operator.InSecond inner.operator :=
    fun inner hmem => Operator.bindsTighter_tightness_iff.1 (hsecond.tighter inner hmem)
  have hinFirst : ∀ inner ∈ g.links, link.operator.InFirst inner.operator :=
    h.outer link rfl
  have hlink : ({ link.toJoint with name := second.front } : Link) = link := by
    rw [hsecond.front_eq]
  refine ⟨h.front_eq, ?_, ⟨h.respects, hsecond.respects, hinFirst, hinSecond⟩, ?_, ?_⟩
  · rw [Grouping.links, hlink, List.append_assoc, List.cons_append, hsecond.links_eq, h.links_eq]
  · intro inner hmem
    rw [Grouping.links, hlink, List.mem_append, List.mem_cons] at hmem
    rcases hmem with hmem | rfl | hmem
    · exact h.tighter inner hmem
    · exact htighter
    · exact (hinSecond inner hmem).bindsTighter htighter
  · intro next hnext inner hmem
    -- the operator behind binds no tighter than the new one, and so than all inside its operands
    have hnextLink : next.operator.InFirst link.operator := by
      rw [← Operator.not_inSecond_iff, ← Operator.bindsTighter_tightness_iff, hlooser next hnext]
      simp
    rw [Grouping.links, hlink, List.mem_append, List.mem_cons] at hmem
    rcases hmem with hmem | rfl | hmem
    · exact hnextLink.trans (hinFirst inner hmem)
    · exact hnextLink
    · exact hnextLink.trans_inSecond (hinSecond inner hmem)

/-! ### The text of a grouping -/

theorem textOf_append (rest : List Char) (links links' : List Link) :
    Link.textOf rest (links ++ links') = Link.textOf (Link.textOf rest links') links := by
  induction links with
  | nil => rfl
  | cons link links ih => simp only [List.cons_append, Link.textOf, ih]

theorem byteLength_spaces (n : ℕ) : byteLength (spaces n) = n :=
  byteLength_replicate_space n

theorem length_le_byteLength_textOf (rest : List Char) (links : List Link) :
    links.length ≤ byteLength (Link.textOf rest links) := by
  induction links with
  | nil => exact Nat.zero_le _
  | cons link links ih =>
    rw [Link.textOf]
    simp only [byteLength_append, byteLength_spaces, List.length_cons]
    omega

/-- A grouping is as wide as its text. -/
theorem byteLength_text (g : Grouping) (rest : List Char) :
    byteLength (g.front.chars ++ Link.textOf rest g.links) = g.width + byteLength rest := by
  induction g generalizing rest with
  | operand name => rw [front, links, Link.textOf, byteLength_append, width]
  | joined first joint second ihFirst ihSecond =>
    have hsecond := ihSecond rest
    rw [byteLength_append] at hsecond
    rw [front, links, textOf_append, ihFirst, Link.textOf]
    simp only [byteLength_append, byteLength_spaces, width, Joint.width, Operator.chars]
    omega

end Grouping

end ExpectError
