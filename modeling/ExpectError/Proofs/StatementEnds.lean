import ExpectError.Placement
import ExpectError.Proofs.Productions
import ExpectError.Grammar.Recursion

/-!
# How statements end

A statement ends with a closing brace, with a closing parenthesis, with a semicolon, or where none is
needed: in front of a closing brace, at the end of the text, or in front of a line break. So if a
statement ends with a keyword that has to share its line with what follows, nothing does follow on
that line. And a statement is one node that starts with its first token.

* `State.Ended`: what there is behind a statement that ends with such a keyword;
* `Concludes`, `KeepsEnded`: readers behind which this is so, always or if it was so before;
* `Completes`, `LeavesOne`: readers that make one node of all pieces, and that leave one more piece;
* `ending_rulesWithin`: the statements of the grammar.
-/

-- the promises of a production are found in as many steps as it has words
set_option synthInstance.maxSize 100000
set_option synthInstance.maxHeartbeats 200000

namespace ExpectError.Grammar

variable {α β : Type} {r : Reader α} {f : α → Reader β} {q : Reader Bool} {x y : Reader α}

/-- Does a token of this kind have to share its line with what follows? -/
def isSensitive (k : TokenKind) : Bool :=
  Placement.lineSensitiveWords.contains k

/-- A token behind which a statement can end whatever follows. -/
class Harmless (k : TokenKind) : Prop where
  ne_end : k ≠ .endOfFile
  insensitive : isSensitive k = false

instance harmless_semicolon : Harmless .semicolon := ⟨by decide, by decide⟩

instance harmless_closeBrace : Harmless .closeBrace := ⟨by decide, by decide⟩

instance harmless_closeParen : Harmless .closeParen := ⟨by decide, by decide⟩

instance harmless_elseKeyword : Harmless .elseKeyword := ⟨by decide, by decide⟩

instance harmless_finallyKeyword : Harmless .finallyKeyword := ⟨by decide, by decide⟩

/-- If the last token is a keyword that has to share its line with what follows, nothing follows on
that line in the statement or behind it. -/
def State.Ended (s : State) : Prop :=
  ∀ token, s.tokens.head? = some token → isSensitive token.kind = true →
    s.scanner.lineBreakBefore = true ∨ s.scanner.kind = .closeBrace ∨ s.scanner.kind = .endOfFile

/-- The constructs that stand where a statement can stand, or in the place of the last part of
one. -/
@[reducible] def Construct.isStatement : Construct → Bool
  | .statement | .innerNamespace => true
  | _ => false

/-- Rules for which statements end as they should, and each statement is one node that starts with its
first token, in runs without errors. -/
structure Rules.Ending (text : List Char) (rules : Rules) : Prop where
  grows : ∀ construct, Grows (rules construct)
  behind : ∀ construct, AddsBehind (rules construct)
  ended : ∀ ⦃construct context s t⦄, construct.isStatement = true → s.scanner.Sound text →
    rules construct context s = some ((), t) → t.errors = [] → t.Ended
  leaves : ∀ ⦃context s t⦄, s.scanner.Sound text →
    rules .statement context s = some ((), t) → t.errors = [] →
      ∃ piece, t.pieces = piece :: s.pieces ∧ piece.start = s.position

/-- In runs without errors from states with some property, a reader gets to states that have some
relation to the first one. -/
def Gains (need : State → Prop) (r : Reader α) (gain : State → State → Prop) : Prop :=
  ∀ ⦃text rules⦄, Rules.Ending text rules → ∀ ⦃context s a t⦄, s.scanner.Sound text → need s →
    r.run rules context s = some (a, t) → t.errors = [] → gain s t

/-- A scanner stays on a token, and the construct starts where it started. -/
theorem sound_run {text : List Char} {rules : Rules}
    (hbehind : ∀ construct, AddsBehind (rules construct)) {context : Context} {s t : State} {a : α}
    (hs : s.scanner.Sound text) (hrun : r.run rules context s = some (a, t)) :
    t.scanner.Sound text ∧ t.start = s.start := by
  have hstays := behind_run hbehind r (n := 0) hs ⟨Nat.zero_le _, fun _ _ => Nat.zero_le _⟩
    (Or.inr (Nat.zero_le _)) hrun
  exact ⟨hstays.sound, hstays.start_eq⟩

/-- One reader after the other. -/
theorem Gains.bind {need : State → Prop} {gain gain' total : State → State → Prop}
    {p : State → Prop} (hr : Gains need r gain) (hf : ∀ a, Gains p (f a) gain')
    (hp : ∀ ⦃s t⦄, gain s t → p t)
    (htotal : ∀ ⦃s t u⦄, t.start = s.start → gain s t → gain' t u → total s u) :
    Gains need (r >>= f) total := by
  intro text rules hrules context s b u hs hn hrun hu
  obtain ⟨a, t, hr', hf'⟩ := run_bind_eq_some.1 hrun
  have ht := errors_eq_nil_of_suffix (grows_run hrules.grows (f a) hf') hu
  obtain ⟨hsound, hstart⟩ := sound_run hrules.behind hs hr'
  have hgain := hr hrules hs hn hr' ht
  exact htotal hstart hgain (hf a hrules hsound (hp hgain) hf' hu)

theorem Gains.mono {need need' : State → Prop} {gain gain' : State → State → Prop}
    (h : Gains need r gain) (hneed : ∀ s, need' s → need s)
    (hgain : ∀ s t, gain s t → gain' s t) : Gains need' r gain' :=
  fun _ _ hrules _ s _ t hs hn hrun ht => hgain s t (h hrules hs (hneed s hn) hrun ht)

/-- Every reader gets somewhere. -/
theorem gains_true (need : State → Prop) (r : Reader α) : Gains need r fun _ _ => True :=
  fun _ _ _ _ _ _ _ _ _ _ _ => trivial

/-- Behind a noted error no run is without errors. -/
theorem gains_report {problem : SyntaxProblem} {f : Unit → Reader β} {need : State → Prop}
    {gain : State → State → Prop} : Gains need (report problem >>= f) gain :=
  fun _ _ hrules _ _ _ _ _ _ hrun hu => absurd hu (errors_ne_nil_of_run_report hrules.grows hrun)

/-- Another mode changes nothing of this, and neither does being nested. -/
theorem Gains.within {change : Mode → Mode} {need : State → Prop} {gain : State → State → Prop}
    (h : Gains need r gain) : Gains need (.within change r) gain :=
  fun _ _ hrules _ _ _ _ hs hn hrun ht => h hrules hs hn hrun ht

theorem Gains.nested {beyond inner : Reader Unit} {need : State → Prop}
    {gain : State → State → Prop} (h : Gains need inner gain) :
    Gains need (Grammar.nested beyond inner) gain := by
  intro text rules hrules context s a u hs hn hrun hu
  obtain ⟨_, hinner⟩ := exists_run_of_run_nested hrules.grows hrun hu
  exact h hrules hs hn hinner hu

/-! ### The ends of statements -/

/-- Behind the reader a statement can end. -/
class Concludes (r : Reader α) : Prop where
  gains : Gains (fun _ => True) r fun _ t => t.Ended

/-- If a statement can end in front of the reader, it can end behind it. -/
class KeepsEnded (r : Reader α) : Prop where
  gains : Gains State.Ended r fun _ t => t.Ended

instance (priority := low) keepsEnded_of_concludes [h : Concludes r] : KeepsEnded r :=
  ⟨h.gains.mono (fun _ _ => trivial) fun _ _ => id⟩

instance (priority := low) keepsEnded_of_asks [Asks r] : KeepsEnded r where
  gains := by
    intro text rules hrules context s a t hs hn hrun _
    rwa [Asks.eq hrun]

instance concludes_bind_right [hf : ∀ a, Concludes (f a)] : Concludes (r >>= f) :=
  ⟨(gains_true _ r).bind (fun a => (hf a).gains) (fun _ _ _ => trivial) fun _ _ _ _ _ h => h⟩

instance concludes_bind_left [hr : Concludes r] [hf : ∀ a, KeepsEnded (f a)] : Concludes (r >>= f) :=
  ⟨hr.gains.bind (fun a => (hf a).gains) (fun _ _ => id) fun _ _ _ _ _ h => h⟩

instance keepsEnded_bind [hr : KeepsEnded r] [hf : ∀ a, KeepsEnded (f a)] : KeepsEnded (r >>= f) :=
  ⟨hr.gains.bind (fun a => (hf a).gains) (fun _ _ => id) fun _ _ _ _ _ h => h⟩

instance concludes_ite {c : Prop} [Decidable c] [Concludes x] [Concludes y] :
    Concludes (if c then x else y) := by
  split <;> infer_instance

instance keepsEnded_ite {c : Prop} [Decidable c] [KeepsEnded x] [KeepsEnded y] :
    KeepsEnded (if c then x else y) := by
  split <;> infer_instance

instance concludes_report_bind {problem : SyntaxProblem} {f : Unit → Reader β} :
    Concludes (report problem >>= f) :=
  ⟨gains_report⟩

instance concludes_report {problem : SyntaxProblem} : Concludes (report problem) where
  gains := by
    intro text rules hrules context s a t hs _ hrun ht
    cases hrun
    exact absurd ht (State.errors_report_ne_nil _ _ _)

instance keepsEnded_wrap {k : NodeKind} : KeepsEnded (wrap k) where
  gains := by
    intro text rules hrules context s a t hs hn hrun _
    cases hrun
    exact hn

instance concludes_scope [h : Concludes r] : Concludes (scope r) where
  gains := by
    intro text rules hrules context s a u hs _ hrun hu
    obtain ⟨t, hinner, rfl⟩ := run_scope_eq_some.1 hrun
    have ht : t.Ended := h.gains hrules (s := s.openScope) hs trivial hinner hu
    exact ht

instance concludes_node {k : NodeKind} {x : Reader Unit} [Concludes x] : Concludes (node k x) := by
  unfold node
  infer_instance

instance concludes_within {change : Mode → Mode} [h : Concludes r] : Concludes (.within change r) :=
  ⟨h.gains.within⟩

theorem concludes_call {construct : Construct} (h : construct.isStatement = true) :
    Concludes (call construct) where
  gains := fun _ _ hrules _ _ _ _ hs _ hrun ht => hrules.ended h hs hrun ht

instance concludes_call_statement : Concludes (call .statement) :=
  concludes_call rfl

instance concludes_call_innerNamespace : Concludes (call .innerNamespace) :=
  concludes_call rfl

/-- A statement can end behind a token that is no such keyword. -/
theorem ended_advance {text : List Char} {s : State} (hs : s.scanner.Sound text)
    (htoken : s.AtToken) (hkind : isSensitive s.scanner.kind = false) (scan : Scan) :
    (s.advance scan).Ended := by
  intro token hlast hsensitive
  have hlt := hs.lt htoken
  have heq : (s.advance scan).tokens.head? =
      some ({ kind := s.scanner.kind, start := s.scanner.start.pos, stop := s.scanner.stop.pos } :
        Token) := by
    simp [State.advance, State.consume, hlt]
  obtain rfl := Option.some.inj (heq.symm.trans hlast)
  rw [hkind] at hsensitive
  cases hsensitive

/-- What is read if a token is at hand, and what is read if not. -/
theorem gains_isAt {k : TokenKind} {need : State → Prop} {gain : State → State → Prop}
    (hx : Gains (fun s => s.scanner.kind = k) x gain)
    (hy : Gains (fun s => need s ∧ s.scanner.kind ≠ k) y gain) :
    Gains need (isAt k >>= fun b => if b = true then x else y) gain := by
  intro text rules hrules context s a u hs hn hrun hu
  obtain ⟨b, t, hb, hrest⟩ := run_bind_eq_some.1 hrun
  cases hb
  split at hrest
  next hkind => exact hx hrules hs (of_decide_eq_true hkind) hrest hu
  next hkind => exact hy hrules hs ⟨hn, fun heq => hkind (decide_eq_true heq)⟩ hrest hu

section

variable {k : TokenKind} [hk : Harmless k]

include hk

theorem gains_advance (scan : Scan) :
    Gains (fun s => s.scanner.kind = k) (.advance scan) fun _ t => t.Ended := by
  rintro text rules hrules context s a t hs rfl hrun -
  cases hrun
  exact ended_advance hs hk.ne_end hk.insensitive scan

instance concludes_expect : Concludes (expect k) :=
  ⟨gains_isAt (gains_advance .code)
    ((Concludes.gains (r := report (.expected k))).mono (fun _ _ => trivial) fun _ _ => id)⟩

instance keepsEnded_accept? : KeepsEnded (accept? k) :=
  ⟨gains_isAt ((gains_advance .code).bind (p := State.Ended) (fun _ => KeepsEnded.gains)
    (fun _ _ => id) fun _ _ _ _ _ h => h) (KeepsEnded.gains.mono (fun _ => And.left) fun _ _ => id)⟩

instance keepsEnded_accept : KeepsEnded (accept k) :=
  ⟨gains_isAt (gains_advance .code) (KeepsEnded.gains.mono (fun _ => And.left) fun _ _ => id)⟩

end

instance keepsEnded_optionally {z : Reader Unit} [KeepsEnded q] [KeepsEnded z] :
    KeepsEnded (optionally q z) := by
  unfold optionally
  infer_instance

/-- If the token is missing, this is noted. -/
instance concludes_optionally_expect? {k : TokenKind} {z : Reader Unit} [h : Concludes z] :
    Concludes (optionally (expect? k) z) where
  gains := by
    intro text rules hrules context s a u hs _ hrun hu
    obtain ⟨b, t, hexpect, hrest⟩ := run_bind_eq_some.1 hrun
    obtain ⟨hsound, -⟩ := sound_run hrules.behind hs hexpect
    cases b with
    | true => exact h.gains hrules hsound trivial hrest hu
    | false =>
      obtain ⟨c, v, -, hnoted⟩ := run_bind_eq_some.1 hexpect
      have ht := errors_eq_nil_of_suffix (grows_run hrules.grows _ hrest) hu
      cases c with
      | true => cases (run_pure_eq_some.1 hnoted).1
      | false => exact absurd ht (errors_ne_nil_of_run_report hrules.grows hnoted)

/-- Where a statement can end without a semicolon. -/
theorem of_atStatementEnd {rules : Rules} {context : Context} {s t : State}
    (hrun : atStatementEnd.run rules context s = some (true, t)) :
    s.scanner.kind ∈ [.semicolon, .closeBrace, .endOfFile] ∨ s.scanner.lineBreakBefore = true := by
  rw [atStatementEnd, or_eq] at hrun
  obtain ⟨b, u, hkind, hline⟩ := run_bind_eq_some.1 hrun
  obtain ⟨k, v, hk, hcontains⟩ := run_bind_eq_some.1 hkind
  cases hk
  obtain ⟨hb, rfl⟩ := run_pure_eq_some.1 hcontains
  cases b with
  | true => exact Or.inl (List.contains_iff_mem.1 hb.symm)
  | false =>
    right
    exact (Prod.mk.inj (Option.some.inj hline)).1

/-- A semicolon ends a statement, and so does a place where none is needed. -/
instance concludes_semicolon : Concludes semicolon where
  gains := by
    refine gains_isAt (gains_advance .code) ?_
    intro text rules hrules context s a u hs hn hrun hu
    obtain ⟨b, t, hend, hrest⟩ := run_bind_eq_some.1 hrun
    obtain rfl := Asks.eq hend
    cases b with
    | true =>
      obtain ⟨-, rfl⟩ := run_pure_eq_some.1 hrest
      intro token _ _
      rcases of_atStatementEnd hend with hkind | hline
      · have hne := hn.2
        simp only [List.mem_cons, List.not_mem_nil, or_false] at hkind
        tauto
      · exact Or.inl hline
    | false =>
      cases hrest
      exact absurd hu (State.errors_report_ne_nil _ _ _)

/-! ### Statements as nodes -/

/-- The reader makes one node of all pieces of the construct. -/
class Completes (r : Reader α) : Prop where
  gains : Gains (fun _ => True) r fun s t => ∃ piece, t.pieces = [piece] ∧ piece.start = s.start

/-- The reader leaves one more piece, and that starts with the token at hand. -/
class LeavesOne (r : Reader α) : Prop where
  gains : Gains (fun _ => True) r fun s t =>
    ∃ piece, t.pieces = piece :: s.pieces ∧ piece.start = s.position

instance completes_wrap {k : NodeKind} : Completes (wrap k) where
  gains := by
    intro text rules hrules context s a t hs _ hrun _
    cases hrun
    exact ⟨_, rfl, rfl⟩

instance completes_bind [hf : ∀ a, Completes (f a)] : Completes (r >>= f) :=
  ⟨(gains_true _ r).bind (fun a => (hf a).gains) (fun _ _ _ => trivial)
    fun _ _ _ hstart _ ⟨piece, hpiece, heq⟩ => ⟨piece, hpiece, heq.trans hstart⟩⟩

instance completes_report_bind {problem : SyntaxProblem} {f : Unit → Reader β} :
    Completes (report problem >>= f) :=
  ⟨gains_report⟩

instance completes_ite {c : Prop} [Decidable c] [Completes x] [Completes y] :
    Completes (if c then x else y) := by
  split <;> infer_instance

instance leavesOne_scope [h : Completes r] : LeavesOne (scope r) where
  gains := by
    intro text rules hrules context s a u hs _ hrun hu
    obtain ⟨t, hinner, rfl⟩ := run_scope_eq_some.1 hrun
    obtain ⟨piece, hpiece, hstart⟩ := h.gains hrules (s := s.openScope) hs trivial hinner hu
    refine ⟨piece, ?_, hstart⟩
    show t.pieces ++ s.pieces = _
    rw [hpiece]
    rfl

instance leavesOne_node {k : NodeKind} {z : Reader Unit} : LeavesOne (node k z) := by
  unfold node
  infer_instance

instance leavesOne_bind [Asks r] [hf : ∀ a, LeavesOne (f a)] : LeavesOne (r >>= f) where
  gains := by
    intro text rules hrules context s b u hs _ hrun hu
    obtain ⟨a, t, hask, hrest⟩ := run_bind_eq_some.1 hrun
    obtain rfl := Asks.eq hask
    exact (hf a).gains hrules hs trivial hrest hu

instance leavesOne_ite {c : Prop} [Decidable c] [LeavesOne x] [LeavesOne y] :
    LeavesOne (if c then x else y) := by
  split <;> infer_instance

/-! ### The productions -/

instance : Concludes block := by unfold block; infer_instance

instance : Concludes functionBlock := concludes_within (h := concludes_within)

instance : Concludes functionBlockOrSemicolon := by unfold functionBlockOrSemicolon; infer_instance

instance : Concludes variableStatement := by unfold variableStatement; infer_instance

instance : Concludes expressionStatement := by unfold expressionStatement; infer_instance

instance : Concludes functionDeclaration := by unfold functionDeclaration; infer_instance

instance : Concludes typeMembers := by unfold typeMembers; infer_instance

instance : Concludes interfaceDeclaration := by unfold interfaceDeclaration; infer_instance

instance : Concludes typeAliasDeclaration := by unfold typeAliasDeclaration; infer_instance

instance : Concludes enumDeclaration := by unfold enumDeclaration; infer_instance

instance {whole : NodeKind} : Concludes (classRest whole) := by unfold classRest; infer_instance

instance : Concludes namespaceBody := by unfold namespaceBody; infer_instance

instance : Concludes namespaceRest := by unfold namespaceRest; infer_instance

instance : Concludes namespaceDeclaration := by unfold namespaceDeclaration; infer_instance

instance : Concludes innerNamespace := by unfold innerNamespace; infer_instance

instance : Concludes importRest := by unfold importRest; infer_instance

instance : Concludes importEqualsRest := by unfold importEqualsRest; infer_instance

instance : Concludes importDeclaration := by unfold importDeclaration; infer_instance

instance : Concludes exportedExpression := by unfold exportedExpression; infer_instance

instance : Concludes exportDeclaration := by unfold exportDeclaration; infer_instance

instance : Concludes exportDefault := by unfold exportDefault; infer_instance

instance : Concludes missingDeclaration := by unfold missingDeclaration; infer_instance

instance : Concludes declarationRest := by
  unfold declarationRest
  refine @concludes_bind_right _ _ _ _ fun k => ?_
  split <;> infer_instance

instance : Concludes declaration := by unfold declaration; infer_instance

instance : Concludes conditionInParens := by unfold conditionInParens; infer_instance

instance : Concludes labeledStatement := by unfold labeledStatement; infer_instance

instance : Concludes ifStatement := by unfold ifStatement; infer_instance

instance : Concludes doStatement := by unfold doStatement; infer_instance

instance {whole : NodeKind} : Concludes (conditionAndBody whole) := by
  unfold conditionAndBody
  infer_instance

instance {whole : NodeKind} : Concludes (loopBody whole) := by unfold loopBody; infer_instance

instance (hasStart : Bool) : Concludes (loopRest hasStart) := by unfold loopRest; infer_instance

instance : Concludes forStatement := by unfold forStatement; infer_instance

instance {whole : NodeKind} : Concludes (jumpStatement whole) := by
  unfold jumpStatement
  infer_instance

instance : Concludes returnStatement := by unfold returnStatement; infer_instance

instance : Concludes throwStatement := by unfold throwStatement; infer_instance

instance : Concludes switchStatement := by unfold switchStatement; infer_instance

instance : KeepsEnded catchClause := by unfold catchClause; infer_instance

instance (handled : Bool) : KeepsEnded (tryRest handled) := by unfold tryRest; infer_instance

instance : Concludes tryStatement := by unfold tryStatement; infer_instance

instance : Concludes debuggerStatement := by unfold debuggerStatement; infer_instance

instance : Concludes plainStatement := by unfold plainStatement; infer_instance

/-- A statement that is a semicolon only. -/
theorem gains_emptyStatement :
    Gains (fun s => s.scanner.kind = .semicolon) (node .emptyStatement advance)
      fun _ t => t.Ended := by
  intro text rules hrules context s a u hs hn hrun hu
  obtain ⟨t, hinner, rfl⟩ := run_scope_eq_some.1 hrun
  obtain ⟨_, v, hadvance, hwrap⟩ := run_bind_eq_some.1 hinner
  cases hwrap
  have hended : v.Ended := gains_advance .code hrules (s := s.openScope) hs hn hadvance hu
  exact hended

instance : Concludes anyStatement where
  gains := by
    intro text rules hrules context s a u hs _ hrun hu
    obtain ⟨k, t, hk, hrest⟩ := run_bind_eq_some.1 hrun
    cases hk
    split at hrest
    case h_2 hkind => exact gains_emptyStatement hrules hs hkind hrest hu
    all_goals exact Concludes.gains hrules hs trivial hrest hu

/-! ### Productions that are one node -/

instance : Completes variableStatement := by unfold variableStatement; infer_instance

instance : Completes functionDeclaration := by unfold functionDeclaration; infer_instance

instance : Completes interfaceDeclaration := by unfold interfaceDeclaration; infer_instance

instance : Completes typeAliasDeclaration := by unfold typeAliasDeclaration; infer_instance

instance : Completes enumDeclaration := by unfold enumDeclaration; infer_instance

instance {whole : NodeKind} : Completes (classRest whole) := by unfold classRest; infer_instance

instance : Completes namespaceDeclaration := by unfold namespaceDeclaration; infer_instance

instance : Completes importRest := by unfold importRest; infer_instance

instance : Completes importEqualsRest := by unfold importEqualsRest; infer_instance

instance : Completes importDeclaration := by unfold importDeclaration; infer_instance

instance : Completes exportedExpression := by unfold exportedExpression; infer_instance

instance : Completes exportDeclaration := by unfold exportDeclaration; infer_instance

instance : Completes exportDefault := by unfold exportDefault; infer_instance

instance : Completes missingDeclaration := by unfold missingDeclaration; infer_instance

instance : Completes declarationRest := by
  unfold declarationRest
  refine @completes_bind _ _ _ _ fun k => ?_
  split <;> infer_instance

instance {whole : NodeKind} : Completes (loopBody whole) := by unfold loopBody; infer_instance

instance (hasStart : Bool) : Completes (loopRest hasStart) := by unfold loopRest; infer_instance

instance : LeavesOne block := by unfold block; infer_instance

instance : LeavesOne declaration := by unfold declaration; infer_instance

instance : LeavesOne labeledStatement := by unfold labeledStatement; infer_instance

instance : LeavesOne ifStatement := by unfold ifStatement; infer_instance

instance : LeavesOne doStatement := by unfold doStatement; infer_instance

instance {whole : NodeKind} : LeavesOne (conditionAndBody whole) := leavesOne_node

instance : LeavesOne forStatement := by unfold forStatement; infer_instance

instance {whole : NodeKind} : LeavesOne (jumpStatement whole) := leavesOne_node

instance : LeavesOne returnStatement := by unfold returnStatement; infer_instance

instance : LeavesOne throwStatement := by unfold throwStatement; infer_instance

instance : LeavesOne switchStatement := by unfold switchStatement; infer_instance

instance : LeavesOne tryStatement := by unfold tryStatement; infer_instance

instance : LeavesOne debuggerStatement := by unfold debuggerStatement; infer_instance

instance : LeavesOne expressionStatement := by unfold expressionStatement; infer_instance

instance : LeavesOne plainStatement := by unfold plainStatement; infer_instance

instance : LeavesOne anyStatement := by
  unfold anyStatement
  refine @leavesOne_bind _ _ _ _ _ fun k => ?_
  split <;> infer_instance

/-! ### All together -/

theorem concludes_produce {construct : Construct} (h : construct.isStatement = true) :
    Concludes (produce construct) := by
  cases construct with
  | statement => exact ⟨Concludes.gains.nested⟩
  | innerNamespace => exact inferInstanceAs (Concludes innerNamespace)
  | _ => cases h

/-- The statements of the grammar end as they should, and each is one node. -/
theorem ending_rulesWithin (text : List Char) (n : ℕ) : (rulesWithin n).Ending text := by
  induction n with
  | zero =>
    refine ⟨grows_rulesWithin 0, addsBehind_rulesWithin 0, ?_, ?_⟩
    · intro construct context s t _ _ hrun
      cases hrun
    · intro context s t _ hrun
      cases hrun
  | succ n ih =>
    refine ⟨grows_rulesWithin (n + 1), addsBehind_rulesWithin (n + 1), ?_, ?_⟩
    · intro construct context s t h hs hrun ht
      exact (concludes_produce h).gains ih hs trivial hrun ht
    · intro context s t hs hrun ht
      have hone : Gains (fun _ => True) (produce .statement) _ :=
        (LeavesOne.gains (r := anyStatement)).nested
      exact hone ih hs trivial hrun ht

end ExpectError.Grammar
