import ExpectError.Proofs.Reading

/-!
# What is read lies behind the token at hand

A reader that makes no node of the pieces that are already there only adds pieces, and these start
at the token at hand or behind it. A reader that does make such nodes starts them where the construct
starts. So what a construct of its own leaves starts at the token at hand or behind it, too.

* `Reader.OnlyAdds`: the pieces that are already there are left alone;
* `behind_run`: where the pieces start;
* `adds_run`: the pieces that are left;
* `addsBehind_rulesWithin`, `adds_rulesWithin`: the productions only add pieces.
-/

namespace ExpectError.Grammar

variable {α : Type} {rules : Rules} {context : Context} {s t : State} {n : ℕ}

/-- No node is made of the pieces of the construct that is being read, and none of them is dropped. -/
def Reader.OnlyAdds : {α : Type} → Reader α → Prop
  | _, bind r f => r.OnlyAdds ∧ ∀ a, (f a).OnlyAdds
  | _, wrap _ => False
  | _, dropPieces => False
  | _, moves r => r.OnlyAdds
  | _, withoutError r => r.OnlyAdds
  | _, attempt r => r.OnlyAdds
  | _, within _ r => r.OnlyAdds
  | _, nested beyond inner => beyond.OnlyAdds ∧ inner.OnlyAdds
  | _, loop step => step.OnlyAdds
  | _, _ => True

/-- The token at hand and all pieces start at an offset or behind it. -/
structure State.Behind (n : ℕ) (s : State) : Prop where
  position : n ≤ s.position
  pieces : ∀ piece ∈ s.pieces, n ≤ piece.start

/-- In the same construct, another sound state has been reached, and everything is still behind some
offset. -/
structure State.StaysBehind (text : List Char) (n : ℕ) (s t : State) : Prop where
  sound : t.scanner.Sound text
  behind : t.Behind n
  start_eq : t.start = s.start

/-- Everything stays behind the offsets behind which it is. -/
def AddsBehind (f : Action α) : Prop :=
  ∀ ⦃text n context s a t⦄, s.scanner.Sound text → s.Behind n → f context s = some (a, t) →
    s.StaysBehind text n t

namespace State

variable {text : List Char}

theorem position_le_advance (h : s.scanner.Sound text) (scan : Scan) :
    s.position ≤ (s.advance scan).position :=
  h.ahead.pos_le.trans (stop_le_start_scan scan s.scanner)

theorem Behind.advance (h : s.Behind n) (hs : s.scanner.Sound text) (scan : Scan) :
    s.StaysBehind text n (s.advance scan) where
  sound := sound_scan scan hs
  behind := ⟨h.position.trans (position_le_advance hs scan), by simpa using h.pieces⟩
  start_eq := start_advance scan s

theorem Behind.addPiece (h : s.Behind n) {piece : Tree} (hpiece : n ≤ piece.start) :
    (s.addPiece piece).Behind n :=
  ⟨h.position, List.forall_mem_cons.2 ⟨hpiece, h.pieces⟩⟩

theorem Behind.report (h : s.Behind n) (hs : s.scanner.Sound text) (speculative : Bool)
    (problem : SyntaxProblem) : s.StaysBehind text n (s.report speculative problem) := by
  unfold State.report
  split
  · exact ⟨hs, h, rfl⟩
  · exact ⟨hs, ⟨h.position, h.pieces⟩, rfl⟩

end State

open State

/-- What a reader adds lies behind the token at hand, unless it makes a node of what is there; such
a node starts where the construct starts. -/
theorem behind_run (hrules : ∀ construct, AddsBehind (rules construct)) (r : Reader α)
    {text : List Char} {a : α} (hs : s.scanner.Sound text) (hbehind : s.Behind n)
    (hr : r.OnlyAdds ∨ n ≤ s.start) (hrun : r.run rules context s = some (a, t)) :
    s.StaysBehind text n t := by
  induction r generalizing context s t with
  | pure | ask | mode | hasPieces => cases hrun; exact ⟨hs, hbehind, rfl⟩
  | bind r f ihr ihf =>
    obtain ⟨b, u, hfirst, hsecond⟩ := run_bind_eq_some.1 hrun
    obtain ⟨hu, hbehind', heq⟩ := ihr hs hbehind (hr.imp_left And.left) hfirst
    obtain ⟨ht, hbehind'', heq'⟩ := ihf b hu hbehind'
      (hr.imp (fun h => h.2 b) fun h => heq ▸ h) hsecond
    exact ⟨ht, hbehind'', heq'.trans heq⟩
  | advance scan => cases hrun; exact hbehind.advance hs scan
  | rescan scan =>
    cases hrun
    have hsame := sameStart_rescan scan hs
    have hpos : (s.rescan scan).position = s.position := congrArg Cursor.pos hsame.start_eq
    exact ⟨hs.of_sameStart hsame, ⟨hpos ▸ hbehind.position, hbehind.pieces⟩, rfl⟩
  | report problem => cases hrun; exact hbehind.report hs _ _
  | leaf kind scan =>
    cases hrun
    have hleaf : n ≤ (s.leafHere kind).start := hbehind.position
    obtain ⟨ht, hbehind', heq⟩ := (hbehind.addPiece hleaf).advance hs scan
    exact ⟨ht, hbehind', heq⟩
  | emptyName => cases hrun; exact ⟨hs, hbehind.addPiece hbehind.position, rfl⟩
  | wrap kind =>
    cases hrun
    have hstart : n ≤ s.start := hr.resolve_left id
    exact ⟨hs, ⟨hbehind.position, List.forall_mem_singleton.2 hstart⟩, rfl⟩
  | dropPieces => cases hrun; exact ⟨hs, ⟨hbehind.position, by simp⟩, rfl⟩
  | scope r ih =>
    obtain ⟨u, hinner, rfl⟩ := run_scope_eq_some.1 hrun
    -- inside, the construct starts at the token at hand
    have hopen : s.openScope.Behind n := ⟨hbehind.position, by simp [State.openScope]⟩
    have hinside : s.openScope.StaysBehind text n u :=
      ih hs hopen (Or.inr hbehind.position) hinner
    exact ⟨hinside.sound, ⟨hinside.behind.position,
      List.forall_mem_append.2 ⟨hinside.behind.pieces, hbehind.pieces⟩⟩, rfl⟩
  | moves r ih => exact ih hs hbehind hr (run_moves_eq_some.1 hrun).1
  | withoutError r ih => exact ih hs hbehind hr (run_withoutError_eq_some.1 hrun).1
  | lookAhead r ih =>
    obtain ⟨rfl, -⟩ := run_lookAhead_eq_some.1 hrun
    exact ⟨hs, hbehind, rfl⟩
  | attempt r ih =>
    rcases run_attempt_eq_some hrun with ⟨-, rfl⟩ | ⟨-, hinner, -⟩
    · exact ⟨hs, hbehind, rfl⟩
    · exact ih hs hbehind hr hinner
  | within change r ih => exact ih hs hbehind hr hrun
  | nested beyond inner ihb ihi =>
    simp only [Reader.run] at hrun
    split at hrun
    · have hreport := hbehind.report hs context.speculative .nestingTooDeep
      obtain ⟨ht, hbehind', heq⟩ := ihb hreport.sound hreport.behind
        (hr.imp And.left fun h => hreport.start_eq ▸ h) hrun
      exact ⟨ht, hbehind', heq.trans hreport.start_eq⟩
    · exact ihi hs hbehind (hr.imp_left And.right) hrun
  | loop step ih =>
    refine iterate_induction (p := s.StaysBehind text n) (fun u b v hu hstep => ?_) _
      ⟨hs, hbehind, rfl⟩ hrun
    have hv := ih hu.sound hu.behind (hr.imp_right fun h => hu.start_eq ▸ h) hstep
    exact ⟨hv.sound, hv.behind, hv.start_eq.trans hu.start_eq⟩
  | call construct => exact hrules construct hs hbehind hrun

/-! ### The pieces that are left -/

/-- The pieces that are there stay there, below the new ones. -/
def Adds (f : Action α) : Prop :=
  ∀ ⦃context s a t⦄, f context s = some (a, t) → s.pieces <:+ t.pieces

theorem adds_iterate {step : Action (Option α)} (h : Adds step) (n : ℕ) :
    Adds (iterate step n) := fun _ s _ _ hrun =>
  iterate_induction (p := fun t => s.pieces <:+ t.pieces) (fun _ _ _ hs hstep => hs.trans (h hstep))
    n List.suffix_rfl hrun

theorem adds_run (hrules : ∀ construct, Adds (rules construct)) (r : Reader α) (hr : r.OnlyAdds) :
    Adds (r.run rules) := by
  induction r with
  | wrap | dropPieces => exact hr.elim
  | pure | ask | mode | hasPieces | rescan =>
    intro context s a t h
    cases h
    exact List.suffix_rfl
  | bind r f ihr ihf =>
    intro context s b u h
    obtain ⟨a, t, hfirst, hsecond⟩ := run_bind_eq_some.1 h
    exact (ihr hr.1 hfirst).trans (ihf a (hr.2 a) hsecond)
  | advance scan =>
    intro context s a t h
    cases h
    simp
  | report problem =>
    intro context s a t h
    cases h
    rw [State.pieces_report]
  | leaf kind scan =>
    intro context s a t h
    cases h
    rw [State.pieces_advance]
    exact List.suffix_cons _ _
  | emptyName =>
    intro context s a t h
    cases h
    exact List.suffix_cons _ _
  -- whatever is gathered in a scope, the pieces around it are put back behind it
  | scope r _ =>
    intro context s a u h
    obtain ⟨t, -, rfl⟩ := run_scope_eq_some.1 h
    exact List.suffix_append _ _
  | moves r ih => exact fun context s b t h => ih hr (run_moves_eq_some.1 h).1
  | withoutError r ih => exact fun context s b t h => ih hr (run_withoutError_eq_some.1 h).1
  | lookAhead r _ =>
    intro context s a t h
    obtain ⟨rfl, -⟩ := run_lookAhead_eq_some.1 h
    exact List.suffix_rfl
  | attempt r ih =>
    intro context s b t h
    rcases run_attempt_eq_some h with ⟨-, rfl⟩ | ⟨-, hinner, -⟩
    · exact List.suffix_rfl
    · exact ih hr hinner
  | within change r ih => exact fun context s a t h => ih hr h
  | nested beyond inner ihb ihi =>
    intro context s a t h
    simp only [Reader.run] at h
    split at h
    · rw [← State.pieces_report context.speculative .nestingTooDeep s]
      exact ihb hr.1 h
    · exact ihi hr.2 h
  | loop step ih => exact fun context s a t h => adds_iterate (ih hr) _ h
  | call construct => exact hrules construct

/-! ### The productions -/

theorem onlyAdds_branch {q : Reader Bool} {x y : Reader α} (hq : q.OnlyAdds) (hx : x.OnlyAdds)
    (hy : y.OnlyAdds) : (q >>= fun b => if b = true then x else y).OnlyAdds := by
  refine ⟨hq, fun b => ?_⟩
  cases b with
  | true => exact hx
  | false => exact hy

theorem onlyAdds_and {q q' : Reader Bool} (hq : q.OnlyAdds) (hq' : q'.OnlyAdds) :
    (q <&&> q').OnlyAdds := by
  refine ⟨hq, fun b => ?_⟩
  cases b with
  | true => exact hq'
  | false => trivial

theorem onlyAdds_isAt (k : TokenKind) : (isAt k).OnlyAdds :=
  ⟨trivial, fun _ => trivial⟩

theorem onlyAdds_missing (problem : SyntaxProblem) : (missing problem).OnlyAdds :=
  ⟨trivial, fun _ => trivial⟩

theorem onlyAdds_identifier : identifier.OnlyAdds :=
  onlyAdds_branch ⟨trivial, fun _ => trivial⟩ trivial (onlyAdds_missing _)

theorem onlyAdds_bindingName : bindingName.OnlyAdds := by
  refine ⟨trivial, fun k => ?_⟩
  dsimp only
  split <;> first | trivial | exact onlyAdds_identifier

theorem onlyAdds_atFunctionType : atFunctionType.OnlyAdds := by
  refine ⟨trivial, fun k => ?_⟩
  dsimp only
  split <;> trivial

theorem onlyAdds_typeOperator : typeOperator.OnlyAdds := by
  refine ⟨trivial, fun k => ?_⟩
  dsimp only
  split <;> first | trivial | exact onlyAdds_branch onlyAdds_atFunctionType trivial trivial

theorem onlyAdds_assertedOrPostfix : assertedOrPostfix.OnlyAdds :=
  onlyAdds_branch
    (onlyAdds_and (onlyAdds_isAt _) ⟨⟨trivial, fun _ => trivial⟩, fun _ => trivial⟩) trivial trivial

theorem onlyAdds_unaryExpression : unaryExpression.OnlyAdds := by
  refine ⟨trivial, fun k => ?_⟩
  dsimp only
  split <;> first
    | trivial
    | exact onlyAdds_assertedOrPostfix
    | exact onlyAdds_branch trivial trivial onlyAdds_assertedOrPostfix

theorem onlyAdds_plainStatement : plainStatement.OnlyAdds :=
  onlyAdds_branch trivial trivial
    (onlyAdds_branch (onlyAdds_and ⟨trivial, fun _ => trivial⟩ trivial) trivial trivial)

theorem onlyAdds_anyStatement : anyStatement.OnlyAdds := by
  refine ⟨trivial, fun k => ?_⟩
  dsimp only
  split <;> first | trivial | exact onlyAdds_plainStatement

/-- All productions leave the pieces alone that are already there. -/
theorem onlyAdds_produce (construct : Construct) : (produce construct).OnlyAdds := by
  cases construct with
  | statement => exact ⟨trivial, onlyAdds_anyStatement⟩
  | assignment => exact ⟨onlyAdds_missing _, onlyAdds_branch (onlyAdds_isAt _) trivial trivial⟩
  | unary => exact ⟨onlyAdds_missing _, onlyAdds_unaryExpression⟩
  | type => exact ⟨onlyAdds_missing _, onlyAdds_branch onlyAdds_atFunctionType trivial trivial⟩
  | typeOperator => exact onlyAdds_typeOperator
  | bindingName => exact onlyAdds_bindingName
  | markup amongChildren => exact ⟨onlyAdds_missing _, trivial⟩
  | binary | leftHandSide | newExpression | innerNamespace => trivial

theorem addsBehind_rulesWithin (n : ℕ) (construct : Construct) :
    AddsBehind (rulesWithin n construct) := by
  induction n generalizing construct with
  | zero => intro text m context s a t _ _ hrun; cases hrun
  | succ n ih =>
    intro text m context s a t hs hbehind hrun
    exact behind_run ih (produce construct) hs hbehind (Or.inl (onlyAdds_produce construct)) hrun

theorem adds_rulesWithin (n : ℕ) (construct : Construct) : Adds (rulesWithin n construct) := by
  induction n generalizing construct with
  | zero => intro context s a t hrun; cases hrun
  | succ n ih => exact adds_run ih (produce construct) (onlyAdds_produce construct)

end ExpectError.Grammar
