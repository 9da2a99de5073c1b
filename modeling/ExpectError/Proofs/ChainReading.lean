import ExpectError.Proofs.Equations
import ExpectError.Proofs.Groupings

/-!
# Reading names joined by operators

Operands are read by climbing: behind an operand, an operator is taken if it binds tighter than what
surrounds the operand, and its second operand is read in the same way, with the operator around it.
What has been read at any time is a grouping of the front of the chain, and the next operator could be
put around it. A step adds an operator with its second operand, the repetition adds all of them up to
one that binds too loosely, and where nothing surrounds the chain there is no such operator.

* `run_unary_name`: a name is an operand;
* `exists_run_operatorRest`, `readsOperands`: one operator, and all that bind tightly enough;
* `SourceFile.read?_chain`: a chain is read as the one grouping that respects how tightly its
  operators bind.
-/

namespace ExpectError

namespace Grammar

open Text

variable {context : Context} {s t : State} {n : ℕ} {name : Name} {links : List Link}
  {ending : List Char}

/-! ### Names as operands -/

/-- The tokens behind a name that make more than an operand of it: what is accessed or called, an
operator behind the operand, a function, a label. -/
def operandRests : List TokenKind :=
  [.dot, .questionDot, .exclamation, .openBracket, .noSubstitutionTemplateLiteral, .templateHead,
   .openParen, .lessThan, .plusPlus, .minusMinus, .equalsGreaterThan, .colon]

/-- The state behind a name, which has become a piece of the construct. -/
def State.takeName (s : State) : State :=
  (s.addPiece (s.leafHere (.token .identifier))).advance .code

theorem State.closeScope_takeName (s : State) : s.openScope.takeName.closeScope s = s.takeName := by
  by_cases hmoved : s.scanner.start.pos < s.scanner.stop.pos <;>
    simp [takeName, advance, consume, addPiece, leafHere, openScope, closeScope, hmoved]

theorem run_access_of_notMem (rules : Rules) (withCalls : Bool)
    (h : s.scanner.kind ∉ operandRests) :
    (access withCalls).run rules context s = some (false, s) := by
  simp only [access, Reader.run_then, run_kind, Option.bind_some]
  split <;> simp_all [operandRests]

theorem run_primaryExpression_name (rules : Rules) (context : Context)
    (hkind : s.scanner.kind = .identifier) :
    primaryExpression.run rules context s = some ((), s.takeName) := by
  have hname : identifier.run rules context s = some ((), s.takeName) := by
    rw [run_identifier, hkind]
    rfl
  have hintroduced : introducedExpression.run rules context s = some ((), s.takeName) := by
    simp only [introducedExpression, Reader.run_then, run_kind, Option.bind_some, hkind]
    simpa [hkind, TokenKind.isIdentifierLike] using hname
  simp [primaryExpression, hkind, literalTokens, hintroduced]

theorem run_leftHandSide_name (rules : Rules) (context : Context)
    (hkind : s.scanner.kind = .identifier) (hnext : s.scanner.next.kind ∉ operandRests) :
    leftHandSide.run rules context s = some ((), s.takeName) := by
  have hprimary := run_primaryExpression_name (s := s.openScope) rules context hkind
  have haccessed : accessedExpression.run rules context s.openScope =
      some ((), s.openScope.takeName) := by
    simp [accessedExpression, hkind, hprimary]
  have haccess : (access true).run rules context s.openScope.takeName =
      some (false, s.openScope.takeName) :=
    run_access_of_notMem rules true hnext
  simp [leftHandSide, accesses, haccessed, run_repeatWhile, repeatRun_succ, haccess,
    State.closeScope_takeName]

/-- A name is an operand. -/
theorem run_unary_name (hdepth : context.depth < maxDepth) (hkind : s.scanner.kind = .identifier)
    (hnext : s.scanner.next.kind ∉ operandRests) :
    (call .unary).run (rulesWithin (n + 2)) context s = some ((), s.takeName) := by
  have hleft (context : Context) :
      (call .leftHandSide).run (rulesWithin (n + 1)) context s.openScope =
        some ((), s.openScope.takeName) :=
    (run_call context s.openScope n .leftHandSide).trans
      (run_leftHandSide_name (s := s.openScope) (rulesWithin n) context hkind hnext)
  have hpostfix (context : Context) :
      postfixExpression.run (rulesWithin (n + 1)) context s = some ((), s.takeName) := by
    have hnext' : s.openScope.takeName.scanner.kind ∉ operandRests := hnext
    simp only [operandRests, List.mem_cons, List.not_mem_nil, not_or, or_false] at hnext'
    simp [postfixExpression, hleft, hnext', State.closeScope_takeName]
  rw [run_call, produce, run_nested, if_neg (by omega)]
  simp only [unaryExpression, assertedOrPostfix, Reader.run_then, run_kind, Option.bind_some, hkind]
  simp [hkind, hpostfix]

/-! ### The tokens of a chain -/

theorem kind_behind_textOf_notMem (hending : IsEnding ending) (links : List Link) (pos : ℕ) :
    (Scanner.behind { pos, rest := Link.textOf ending links }).kind ∉ operandRests := by
  cases links with
  | nil =>
    rcases kind_behind_ending hending pos with hkind | hkind <;>
      rw [Link.textOf, hkind] <;> decide
  | cons link links =>
    have hfront : link.operator.front ∉ operandRests := by
      have hfronts : ∀ operator ∈ operators, operator.2 ∉ operandRests := by decide
      unfold Operator.front
      split_ifs
      · decide
      · exact hfronts _ link.operator.mem
    have hkind := link.operator.kind_front pos (link.spacesBefore + 1)
      (spaces link.spacesBehind ++ (link.name.chars ++ Link.textOf ending links))
    rwa [← hkind] at hfront

/-- A name is at hand, and operators with names behind them follow. -/
def State.AtChain (s : State) (name : Name) (links : List Link) (ending : List Char) : Prop :=
  s.scanner.At .identifier s.position
    { pos := s.position + byteLength name.chars, rest := Link.textOf ending links }

theorem State.AtChain.of_scanner_eq (hending : IsEnding ending) (pos blanks : ℕ)
    (h : s.scanner = Scanner.behind
      { pos, rest := spaces blanks ++ (name.chars ++ Link.textOf ending links) }) :
    s.AtChain name links ending ∧ s.position = pos + blanks := by
  have hname := name.at_name (Link.head?_textOf hending links) pos blanks
  rw [← h] at hname
  have hposition : s.position = pos + blanks := hname.start_eq
  refine ⟨?_, hposition⟩
  rwa [State.AtChain, hposition]

theorem State.AtChain.next_notMem (h : s.AtChain name links ending) (hending : IsEnding ending) :
    s.scanner.next.kind ∉ operandRests := by
  rw [Scanner.next_eq_behind, h.stop_eq]
  exact kind_behind_textOf_notMem hending links _

theorem rescanGreater_ending (hending : IsEnding ending) (pos : ℕ) :
    (Scanner.behind { pos, rest := ending }).rescanGreater =
      Scanner.behind { pos, rest := ending } := by
  rcases kind_behind_ending hending pos with hkind | hkind <;>
    rw [Scanner.rescanGreater, if_neg (by simp [hkind])]

/-- Behind the last operand there is no operator. -/
theorem bindsTighter_ending (hending : IsEnding ending) (pos precedence : ℕ) :
    bindsTighter (Scanner.behind { pos, rest := ending }).rescanGreater.kind precedence = false := by
  rw [rescanGreater_ending hending]
  rcases kind_behind_ending hending pos with hkind | hkind <;> rw [hkind] <;> rfl

/-! ### What has been read of a chain -/

/-- From one state to the other, names joined by operators have been read as one piece of the
construct, without an error. Whether a `>` behind them has been joined is left open. -/
structure State.ReadsGrouping (s t : State) (g : Grouping) (rest : List Char) : Prop where
  scanner_eq : t.scanner.rescanGreater =
    (Scanner.behind { pos := s.position + g.width, rest }).rescanGreater
  pieces_eq : t.pieces = g.tree s.position :: s.pieces
  lastStop_eq : t.lastStop = s.position + g.width
  errors_eq : t.errors = s.errors
  start_eq : t.start = s.start

namespace State.ReadsGrouping

variable {u : State} {g second : Grouping} {rest rest' : List Char}

theorem rescan (h : s.ReadsGrouping t g rest) : s.ReadsGrouping (t.rescan .greater) g rest :=
  { h with scanner_eq := (Scanner.rescanGreater_rescanGreater _).trans h.scanner_eq }

theorem closeScope (h : s.openScope.ReadsGrouping t g rest) :
    s.ReadsGrouping (t.closeScope s) g rest where
  scanner_eq := h.scanner_eq
  pieces_eq := by
    rw [State.closeScope, h.pieces_eq]
    rfl
  lastStop_eq := h.lastStop_eq
  errors_eq := h.errors_eq
  start_eq := rfl

theorem takeName (h : s.AtChain name links ending) :
    s.ReadsGrouping s.takeName (.operand name) (Link.textOf ending links) := by
  have hpos := name.byteLength_pos
  have hstop : s.scanner.stop.pos = s.position + byteLength name.chars := by rw [h.stop_eq]
  have hconsumed : s.scanner.start.pos < s.scanner.stop.pos := by
    have hstart : s.scanner.start.pos = s.position := rfl
    omega
  rw [State.takeName, advance_addPiece]
  refine ⟨?_, ?_, ?_, errors_consume s, start_advance .code s⟩
  · show s.scanner.next.rescanGreater = _
    rw [Scanner.next_eq_behind, h.stop_eq]
    rfl
  · rw [Grouping.tree, ← hstop]
    rfl
  · show (s.advance .code).lastStop = _
    rw [lastStop_advance, if_pos hconsumed, hstop]
    rfl

/-- An operator and its second operand behind the first one: all is made one node. -/
theorem join {joint : Joint} (h : s.ReadsGrouping t g rest) (hpieces : s.pieces = [])
    (hstart : s.start = s.position)
    (hposition : (t.advance .code).position = s.position + (g.width + joint.width))
    (hsecond : (t.advance .code).ReadsGrouping u second rest') :
    s.ReadsGrouping (u.wrap .binaryExpression) (.joined g joint second) rest' := by
  have herrors : (t.advance .code).errors = t.errors := errors_consume t
  have hscanner := hsecond.scanner_eq
  have hboth := hsecond.pieces_eq
  have hlast := hsecond.lastStop_eq
  have hwidth : (Grouping.joined g joint second).width = g.width + joint.width + second.width := rfl
  have hu : u.start = s.position := by rw [hsecond.start_eq, start_advance, h.start_eq, hstart]
  rw [hposition] at hscanner hboth hlast
  rw [pieces_advance, h.pieces_eq, hpieces] at hboth
  refine ⟨?_, ?_, ?_, ?_, ?_⟩
  · rw [hwidth, ← Nat.add_assoc]
    exact hscanner
  · simp only [State.wrap, hpieces, hboth, hu, hlast, Grouping.tree, Grouping.start_tree,
      Grouping.stop_tree]
    rw [max_eq_left (by omega)]
    rfl
  · rw [hwidth, ← Nat.add_assoc]
    exact hlast
  · exact hsecond.errors_eq.trans (herrors.trans h.errors_eq)
  · exact hsecond.start_eq.trans ((start_advance _ _).trans h.start_eq)

end State.ReadsGrouping

/-- From one state to the other, a grouping of the front of a chain has been read whose operators bind
tighter than a given precedence, and some links are left. -/
def State.Gathers (s t : State) (name : Name) (links : List Link) (precedence : ℕ)
    (ending : List Char) (rest : List Link) : Prop :=
  ∃ g : Grouping, g.IsHead name links precedence rest ∧
    s.ReadsGrouping t g (Link.textOf ending rest)

/-- Does the chain not go on with an operator that binds tighter than a given precedence? -/
def StopsAt (precedence : ℕ) (rest : List Link) : Prop :=
  ∀ link ∈ rest.head?, bindsTighter link.operator.kind precedence = false

/-- By the rules for a precedence, a chain is read as far as its operators bind tighter. -/
def ReadsOperands (n : ℕ) (context : Context) (ending : List Char) (links : List Link) : Prop :=
  ∀ (precedence : ℕ) (s : State) (name : Name), s.AtChain name links ending →
    ∃ rest t, s.Gathers t name links precedence ending rest ∧ StopsAt precedence rest ∧
      (call (.binary precedence)).run (rulesWithin n) context s = some ((), t)

/-! ### Operators with their second operands -/

/-- Where no operator binds tightly enough, nothing is read. -/
theorem run_operatorRest_of_looser (rules : Rules) {precedence : ℕ}
    (hlooser : bindsTighter s.scanner.rescanGreater.kind precedence = false) :
    (operatorRest precedence).run rules context s = some (false, s.rescan .greater) := by
  have hkind : (s.rescan .greater).scanner.kind = s.scanner.rescanGreater.kind := rfl
  simp [operatorRest, hkind, hlooser]

/-- An operator that binds tightly enough, and its second operand. -/
theorem run_operatorRest_of_tighter (rules : Rules) {precedence : ℕ} (operator : Operator)
    (hkind : s.scanner.rescanGreater.kind = operator.kind)
    (htighter : bindsTighter operator.kind precedence = true)
    (hin : context.mode.withoutIn = false) :
    (operatorRest precedence).run rules context s =
      ((call (.binary operator.tightness)).run rules context
        ((s.rescan .greater).advance .code)).map fun x => (true, x.2.wrap .binaryExpression) := by
  have hkind' : (s.rescan .greater).scanner.kind = operator.kind := hkind
  have hpos : Grammar.precedence operator.kind ≠ 0 := operator.tightness_bounds.1.ne'
  have hchecks : ∀ operator ∈ operators,
      operator.2 ≠ .asKeyword ∧ operator.2 ≠ .satisfiesKeyword := by
    decide
  have hoperator := hchecks _ operator.mem
  simp only [operatorRest, Reader.run_then, Reader.run_rescan, run_kind, Option.bind_some, hkind']
  simp [hpos, htighter, hin, hoperator, Operator.tightness]
  cases (call (.binary (Grammar.precedence operator.kind))).run rules context
    ((s.rescan .greater).advance .code) <;> rfl

/-- One more operator with its second operand is gathered. -/
theorem exists_run_operatorRest (hending : IsEnding ending) (hin : context.mode.withoutIn = false)
    {link : Link} {rest : List Link} {precedence : ℕ} (hinner : ReadsOperands n context ending rest)
    (hpieces : s.pieces = []) (hstart : s.start = s.position)
    (ht : s.Gathers t name links precedence ending (link :: rest))
    (htighter : bindsTighter link.operator.kind precedence = true) :
    ∃ rest' u, rest'.length ≤ rest.length ∧ s.Gathers u name links precedence ending rest' ∧
      (operatorRest precedence).run (rulesWithin n) context t = some (true, u) := by
  obtain ⟨g, hg, hread⟩ := ht
  have hat := link.at_operator ending rest (s.position + g.width)
  rw [← hread.scanner_eq] at hat
  have hscanner : ((t.rescan .greater).advance .code).scanner = Scanner.behind
      { pos := s.position + g.width + (link.spacesBefore + 1) + byteLength link.operator.chars
        rest := spaces (link.spacesBehind + 1) ++ (link.name.chars ++ Link.textOf ending rest) } := by
    show t.scanner.rescanGreater.next = _
    rw [Scanner.next_eq_behind, hat.stop_eq]
  obtain ⟨hchain, hposition⟩ := State.AtChain.of_scanner_eq hending _ _ hscanner
  obtain ⟨rest', u, ⟨second, hsecond, hreadSecond⟩, hstops, hrun⟩ :=
    hinner link.operator.tightness _ link.name hchain
  have hshorter : rest'.length ≤ rest.length := by
    have hlinks := congrArg List.length hsecond.links_eq
    rw [List.length_append] at hlinks
    omega
  have hwidth : ((t.rescan .greater).advance .code).position =
      s.position + (g.width + link.toJoint.width) := by
    rw [hposition, Joint.width]
    omega
  refine ⟨rest', u.wrap .binaryExpression, hshorter, ⟨_, hg.join htighter hsecond hstops,
    hread.rescan.join hpieces hstart hwidth hreadSecond⟩, ?_⟩
  rw [run_operatorRest_of_tighter _ link.operator hat.kind_eq htighter hin, hrun]
  rfl

/-- Behind a first operand, the rounds of the repetition gather operators as far as they bind
tighter. -/
theorem exists_repeatRun_operatorRest (hending : IsEnding ending)
    (hin : context.mode.withoutIn = false) {rest : List Link} {precedence rounds : ℕ}
    (hinner : ∀ rest' : List Link, rest'.length < rest.length → ReadsOperands n context ending rest')
    (hrounds : rest.length < rounds) (hpieces : s.pieces = []) (hstart : s.start = s.position)
    (ht : s.Gathers t name links precedence ending rest) :
    ∃ rest' u, s.Gathers u name links precedence ending rest' ∧ StopsAt precedence rest' ∧
      repeatRun (rulesWithin n) (operatorRest precedence) rounds context t = some ((), u) := by
  induction rounds generalizing rest t with
  | zero => exact absurd hrounds (Nat.not_lt_zero _)
  | succ rounds ih =>
    -- the repetition stops at the end of the chain, or at an operator that does not bind tighter
    have hstop (hlooser : bindsTighter t.scanner.rescanGreater.kind precedence = false)
        (hstops : StopsAt precedence rest) :
        ∃ rest' u, s.Gathers u name links precedence ending rest' ∧ StopsAt precedence rest' ∧
          repeatRun (rulesWithin n) (operatorRest precedence) (rounds + 1) context t =
            some ((), u) := by
      obtain ⟨g, hg, hread⟩ := ht
      refine ⟨rest, t.rescan .greater, ⟨g, hg, hread.rescan⟩, hstops, ?_⟩
      rw [repeatRun_succ, run_operatorRest_of_looser _ hlooser]
      rfl
    cases rest with
    | nil =>
      refine hstop ?_ (by simp [StopsAt])
      obtain ⟨g, -, hread⟩ := ht
      rw [hread.scanner_eq]
      exact bindsTighter_ending hending _ _
    | cons link rest =>
      cases htighter : bindsTighter link.operator.kind precedence with
      | false =>
        refine hstop ?_ (by simpa [StopsAt] using htighter)
        obtain ⟨g, -, hread⟩ := ht
        rw [hread.scanner_eq, (link.at_operator ending rest _).kind_eq, htighter]
      | true =>
        rw [List.length_cons] at hrounds
        obtain ⟨rest', u, hshorter, hgathers, hrun⟩ :=
          exists_run_operatorRest hending hin (hinner rest (Nat.lt_succ_self _)) hpieces hstart ht
            htighter
        rw [repeatRun_succ, hrun]
        exact ih (fun inner h => hinner inner (by rw [List.length_cons]; omega)) (by omega) hgathers

/-- A chain is read as far as its operators bind tighter than what surrounds it. -/
theorem readsOperands (context : Context) (hending : IsEnding ending)
    (hin : context.mode.withoutIn = false) (hdepth : context.depth < maxDepth) (links : List Link)
    (hlevels : links.length + 3 ≤ n) (hrounds : links.length < context.size + 2) :
    ReadsOperands n context ending links := by
  induction hlength : links.length using Nat.strong_induction_on generalizing links n with
  | _ length ih =>
    subst hlength
    intro precedence s name hchain
    obtain ⟨n, rfl⟩ := Nat.exists_eq_add_of_le' (Nat.le_of_add_left_le hlevels)
    have hunary : (call .unary).run (rulesWithin (n + 2)) context s.openScope =
        some ((), s.openScope.takeName) :=
      run_unary_name hdepth hchain.kind_eq (hchain.next_notMem hending)
    have hinner (inner : List Link) (h : inner.length < links.length) :
        ReadsOperands (n + 2) context ending inner :=
      ih _ h inner (by omega) (by omega) rfl
    have hfirst : s.openScope.Gathers s.openScope.takeName name links precedence ending links :=
      ⟨_, Grouping.isHead_operand name links precedence, State.ReadsGrouping.takeName hchain⟩
    obtain ⟨rest, t, ⟨g, hg, hread⟩, hstops, hrun⟩ :=
      exists_repeatRun_operatorRest hending hin hinner hrounds rfl rfl hfirst
    refine ⟨rest, t.closeScope s, ⟨g, hg, hread.closeScope⟩, hstops, ?_⟩
    rw [run_call, produce, binaryExpression, run_scope, Reader.run_then, hunary, Option.bind_some,
      run_repeatWhile, hrun]
    rfl

/-! ### Expressions and statements -/

/-- What follows a name does not make it the parameter of a function. -/
theorem run_arrowFront_name (rules : Rules) (context : Context)
    (hkind : s.scanner.kind = .identifier) (hnext : s.scanner.next.kind ∉ operandRests) :
    arrowFront.run rules context s = some (false, s) := by
  have harrow : (s.advance .code).scanner.kind ≠ .equalsGreaterThan :=
    (ne_of_mem_of_not_mem (by decide) hnext).symm
  simp only [arrowFront, Reader.run_then, run_kind, Option.bind_some, hkind]
  simp [hkind, atArrow, harrow]

/-- Nothing is assigned to a chain, and nothing depends on it. -/
theorem run_plainAssignment_of_end {rules : Rules}
    (hrun : (call (.binary 0)).run rules context s = some ((), t))
    (hend : t.scanner.rescanGreater.kind = .endOfFile ∨
      t.scanner.rescanGreater.kind = .semicolon) :
    plainAssignment.run rules context s = some ((), t.rescan .greater) := by
  have hassign : (t.rescan .greater).scanner.kind.isAssignmentOperator = false := by
    show t.scanner.rescanGreater.kind.isAssignmentOperator = false
    rcases hend with hend | hend <;> rw [hend] <;> decide
  have hquestion : (t.rescan .greater).scanner.kind ≠ .question := by
    show t.scanner.rescanGreater.kind ≠ .question
    rcases hend with hend | hend <;> rw [hend] <;> decide
  simp [plainAssignment, conditionalRest, hrun, hassign, hquestion]

/-- A chain is read as an expression, up to its end. -/
theorem exists_run_assignment (context : Context) (hending : IsEnding ending)
    (hin : context.mode.withoutIn = false) (hdepth : context.depth + 1 < maxDepth)
    (hlevels : links.length + 3 ≤ n) (hrounds : links.length < context.size + 2)
    (hchain : s.AtChain name links ending) :
    ∃ g t, g.Groups name links ∧ s.ReadsGrouping t g ending ∧
      t.scanner = Scanner.behind { pos := s.position + g.width, rest := ending } ∧
      (call .assignment).run (rulesWithin (n + 1)) context s = some ((), t) := by
  let nested : Context := { context with depth := context.depth + 1 }
  obtain ⟨rest, t, ⟨g, hg, hread⟩, hstops, hrun⟩ :=
    readsOperands nested hending hin hdepth links hlevels hrounds 0 s.openScope name hchain
  -- every operator binds tighter than nothing at all
  obtain rfl : rest = [] := by
    cases rest with
    | nil => rfl
    | cons link rest => simpa [link.operator.bindsTighter_zero] using hstops link rfl
  have hend : t.scanner.rescanGreater =
      Scanner.behind { pos := s.position + g.width, rest := ending } :=
    hread.scanner_eq.trans (rescanGreater_ending hending _)
  have hfront : arrowFront.run (rulesWithin n) nested s.openScope = some (false, s.openScope) :=
    run_arrowFront_name _ _ hchain.kind_eq (hchain.next_notMem hending)
  have hplain := run_plainAssignment_of_end hrun (hend ▸ kind_behind_ending hending _)
  refine ⟨g, (t.rescan .greater).closeScope s, hg.groups, hread.rescan.closeScope, hend, ?_⟩
  rw [run_call, produce, run_nested, if_neg (by omega)]
  simp [assignmentExpression, hchain.kind_eq, nested, hfront, hplain]

theorem run_wholeExpression_of_end {rules : Rules}
    (hrun : (call .assignment).run rules
      { context with mode := { context.mode with withoutIn := false } } s.openScope = some ((), t))
    (hend : t.scanner.kind ≠ .comma) :
    wholeExpression.run rules context s = some ((), t.closeScope s) := by
  simp [wholeExpression, expression, hrun, repeatedly, run_repeatWhile, repeatRun_succ, hend]

/-- At the end of a chain, its statement ends, with a semicolon or without. -/
theorem exists_run_semicolon (rules : Rules) (context : Context) (hending : IsEnding ending) {pos : ℕ}
    (hscanner : s.scanner = Scanner.behind { pos, rest := ending }) (hlast : s.lastStop = pos) :
    ∃ t, semicolon.run rules context s = some ((), t) ∧
      t.scanner.At .endOfFile (pos + byteLength ending)
        { pos := pos + byteLength ending, rest := [] } ∧
      t.lastStop = pos + byteLength ending ∧ t.pieces = s.pieces ∧ t.errors = s.errors ∧
      t.start = s.start := by
  have hat := at_ending hending pos
  rw [← hscanner] at hat
  rcases hat with ⟨rfl, hat⟩ | ⟨rfl, hat⟩
  · refine ⟨s, ?_, hat, hlast, rfl, rfl, rfl⟩
    simp [semicolon, atStatementEnd, hat.kind_eq]
  · refine ⟨s.advance .code, ?_, ?_, ?_, State.pieces_advance _ _, State.errors_consume s,
      State.start_advance _ _⟩
    · simp [semicolon, hat.kind_eq]
    · have hend := (at_ending (Or.inl rfl) (pos + 1)).resolve_right (by simp)
      show s.scanner.next.At _ _ _
      rw [Scanner.next_eq_behind, hat.stop_eq]
      exact hend.2
    · rw [State.lastStop_advance, hat.start_eq, hat.stop_eq, if_pos (Nat.lt_succ_self pos)]
      rfl

/-- What follows a name makes neither a declaration nor a label of it. -/
theorem run_anyStatement_name (rules : Rules) (context : Context)
    (hkind : s.scanner.kind = .identifier) (hnext : s.scanner.next.kind ∉ operandRests) :
    anyStatement.run rules context s = expressionStatement.run rules context s := by
  have hstep (context : Context) : declarationStep.run rules context s = some (some false, s) := by
    simp only [declarationStep, Reader.run_then, run_kind, Option.bind_some, hkind, Reader.run_pure]
  have hdeclaration : atDeclaration.run rules context s = some (false, s) := by
    simp [atDeclaration, run_loop_of_some _ _ _ (hstep _)]
  have hcolon : (s.advance .code).scanner.kind ≠ .colon :=
    (ne_of_mem_of_not_mem (by decide) hnext).symm
  have hplain : plainStatement.run rules context s = expressionStatement.run rules context s := by
    simp [plainStatement, hdeclaration, hkind, nextIsAny, hcolon]
  simp only [anyStatement, Reader.run_then, run_kind, Option.bind_some, hkind, hplain]

/-- A chain is read as a statement, up to the end of the text. -/
theorem exists_run_statement (hending : IsEnding ending) (hdepth : context.depth + 2 < maxDepth)
    (hlevels : links.length + 3 ≤ n) (hrounds : links.length < context.size + 2)
    (hchain : s.AtChain name links ending) :
    ∃ (g : Grouping) (t : State) (stop : ℕ), g.Groups name links ∧
      stop = s.position + g.width + byteLength ending ∧
      t.scanner.At .endOfFile stop { pos := stop, rest := [] } ∧
      t.pieces = .node .expressionStatement s.position stop [g.tree s.position] :: s.pieces ∧
      t.errors = s.errors ∧ (call .statement).run (rulesWithin (n + 2)) context s = some ((), t) := by
  let nested : Context := { context with depth := context.depth + 1 }
  obtain ⟨g, t, hgroups, hread, hend, hrun⟩ :=
    exists_run_assignment (s := s.openScope.openScope)
      { nested with mode := { context.mode with withoutIn := false } } hending rfl hdepth hlevels
      hrounds hchain
  -- the chain is the whole expression: no comma is behind it
  have hcomma : t.scanner.kind ≠ .comma := by
    rw [hend]
    rcases kind_behind_ending hending _ with hkind | hkind <;> rw [hkind] <;> decide
  have hexpression : wholeExpression.run (rulesWithin (n + 1)) nested s.openScope =
      some ((), t.closeScope s.openScope) :=
    run_wholeExpression_of_end hrun hcomma
  obtain ⟨u, hsemicolon, hat, hlast, hpieces, herrors, hstart⟩ :=
    exists_run_semicolon (s := t.closeScope s.openScope) (rulesWithin (n + 1)) nested hending hend
      hread.lastStop_eq
  refine ⟨g, (u.wrap .expressionStatement).closeScope s, _, hgroups, rfl, hat, ?_,
    herrors.trans hread.errors_eq, ?_⟩
  · have hu : u.start = s.position := hstart
    have hpiece : u.pieces = [g.tree s.position] := by
      rw [hpieces, State.closeScope, hread.pieces_eq]
      rfl
    have hstop : u.lastStop = s.position + g.width + byteLength ending := hlast
    simp only [State.closeScope, State.wrap, hpiece, hu, hstop]
    rw [max_eq_left (by omega)]
    rfl
  · rw [run_call, produce, run_nested, if_neg (by omega),
      run_anyStatement_name _ _ hchain.kind_eq (hchain.next_notMem hending), expressionStatement,
      run_node, Reader.run_then, hexpression, Option.bind_some, hsemicolon]
    rfl

/-- A chain is a whole text. -/
theorem exists_run_wholeText (context : Context) (hending : IsEnding ending)
    (hdepth : context.depth + 2 < maxDepth) (name : Name) (links : List Link)
    (hsize : context.size = byteLength (name.chars ++ Link.textOf ending links)) :
    ∃ (g : Grouping) (t : State), g.Groups name links ∧
      wholeText.run (rulesWithin (depthBound context.size)) context
        { scanner := Scanner.ofText (name.chars ++ Link.textOf ending links) } = some ((), t) ∧
      t.pieces = [.node .expressionStatement 0 context.size [g.tree 0]] ∧ t.errors = [] := by
  let s : State :=
    State.advance .code { scanner := Scanner.ofText (name.chars ++ Link.textOf ending links) }
  obtain ⟨hchain, hposition⟩ : s.openScope.AtChain name links ending ∧ s.openScope.position = 0 :=
    State.AtChain.of_scanner_eq hending 0 0 rfl
  have hlength := Grouping.length_le_byteLength_textOf ending links
  rw [byteLength_append] at hsize
  obtain ⟨g, t, stop, hgroups, hstop, hat, hpieces, herrors, hrun⟩ :=
    exists_run_statement (n := 8 * context.size + 62) hending hdepth (by omega) (by omega) hchain
  have hwhole : stop = context.size := by
    have hwidth := g.byteLength_text ending
    rw [hgroups.front_eq, hgroups.links_eq, byteLength_append] at hwidth
    omega
  have hmoved : t.position ≠ s.position := by
    have hpos := name.byteLength_pos
    have hend : t.position = stop := hat.start_eq
    have hstart : s.position = 0 := hposition
    omega
  have hkind : s.scanner.kind ≠ .endOfFile := by
    have hkind : s.scanner.kind = .identifier := hchain.kind_eq
    simp [hkind]
  refine ⟨g, t.closeScope s, hgroups, ?_, ?_, herrors⟩
  · rw [wholeText, Reader.run_then, run_advance, Option.bind_some]
    exact run_itemsUntil_of_one _ _ _ _ hkind hrun hmoved hat.kind_eq
  · rw [State.closeScope, hpieces, hposition, hwhole]
    rfl

end Grammar

open Grammar Text

/-- Names joined by operators, with spaces around these, are read as one statement without an error,
and its tree is the only one over the names in their order that respects how tightly the operators
bind. -/
theorem SourceFile.read?_chain (dialect : Dialect) (name : Name) (links : List Link)
    {ending text : List Char} (hending : IsEnding ending)
    (htext : text = name.chars ++ Link.textOf ending links) :
    ∃ g : Grouping, g.Groups name links ∧ (∀ g' : Grouping, g'.Groups name links → g' = g) ∧
      ∃ file, read? dialect text = some file ∧ file.errors = [] ∧
        file.tree = .node .sourceFile 0 (byteLength text)
          [.node .expressionStatement 0 (byteLength text) [g.tree 0]] := by
  subst htext
  obtain ⟨g, t, hgroups, hrun, hpieces, herrors⟩ :=
    exists_run_wholeText { size := _, mode := { markup := dialect = .markup } } hending
      (show 0 + 2 < maxDepth by decide) name links rfl
  refine ⟨g, hgroups, fun g' h => h.unique hgroups, ?_⟩
  simp only [read?, hrun]
  exact ⟨_, rfl, by rw [herrors]; rfl, by rw [hpieces]; rfl⟩

/-- A name of one letter. -/
def Name.letter (c : Char)
    (h : Cursor.isIdentifierStart c = true ∧ Cursor.isIdentifierPart c = true ∧
      TokenKind.ofKeyword? (String.ofList [c]) = none) : Name where
  chars := [c]
  isWord := ⟨c, [], rfl, h.1⟩
  isPart := by simpa using h.2.1
  notKeyword := h.2.2

/-- Powers group to the right and differences to the left, and the shift is around all of them. -/
theorem SourceFile.read?_chain_powers :
    ∃ file, read? .standard "a - b - c ** d ** e >>> f;".toList = some file ∧ file.errors = [] ∧
      file.tree = .node .sourceFile 0 26 [.node .expressionStatement 0 26
        [.node .binaryExpression 0 25
          [.node .binaryExpression 0 19
            [.node .binaryExpression 0 5
              [.leaf (.token .identifier) 0 1, .leaf (.token .identifier) 4 5],
             .node .binaryExpression 8 19
              [.leaf (.token .identifier) 8 9,
               .node .binaryExpression 13 19
                [.leaf (.token .identifier) 13 14, .leaf (.token .identifier) 18 19]]],
           .leaf (.token .identifier) 24 25]]] := by
  let minus : Joint := ⟨0, ⟨"-", .minus, by decide⟩, 0⟩
  let power : Joint := ⟨0, ⟨"**", .asteriskAsterisk, by decide⟩, 0⟩
  let shift : Joint := ⟨0, ⟨">>>", .greaterThanGreaterThanGreaterThan, by decide⟩, 0⟩
  let a := Name.letter 'a' (by decide +kernel)
  let b := Name.letter 'b' (by decide +kernel)
  let c := Name.letter 'c' (by decide +kernel)
  let d := Name.letter 'd' (by decide +kernel)
  let e := Name.letter 'e' (by decide +kernel)
  let f := Name.letter 'f' (by decide +kernel)
  let links : List Link := [⟨minus, b⟩, ⟨minus, c⟩, ⟨power, d⟩, ⟨power, e⟩, ⟨shift, f⟩]
  let g : Grouping := .joined
    (.joined (.joined (.operand a) minus (.operand b)) minus
      (.joined (.operand c) power (.joined (.operand d) power (.operand e)))) shift (.operand f)
  have hgroups : g.Groups a links := by
    refine ⟨rfl, rfl, ?_⟩
    simp [g, Grouping.Respects, Grouping.links, Operator.InFirst, Operator.InSecond,
      Operator.IsPower, Operator.tightness, precedence, minus, power, shift]
  have htext : "a - b - c ** d ** e >>> f;".toList = a.chars ++ Link.textOf [';'] links := by
    simp [a, b, c, d, e, f, minus, power, shift, links, Name.letter, Link.textOf, spaces]
  obtain ⟨g', -, hunique, file, hread, herrors, htree⟩ :=
    read?_chain .standard a links (Or.inr rfl) htext
  obtain rfl := hunique g hgroups
  refine ⟨file, hread, herrors, htree.trans ?_⟩
  cbv

end ExpectError
