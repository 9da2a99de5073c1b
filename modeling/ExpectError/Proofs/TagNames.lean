import ExpectError.Proofs.Promises
import ExpectError.Grammar.Markup

/-!
# The names of tags and attributes

What readers do to the pieces of the construct that is being read, as conditions on the pieces before
and behind them. Where nothing has been read yet, the productions of names leave one name.

* `Turns`: pieces with one property become pieces with another one;
* `Named`: a name on top of pieces with some property;
* `turns_tagName`, `turns_attributeName`: the productions of names;
* `BeginsWithName`: a name is the first of the pieces, whatever comes behind it.
-/

namespace ExpectError.Grammar

variable {α β : Type} {q q' q'' : List Tree → Prop} {r : Reader α} {f : α → Reader β}

/-- In a run without errors, pieces with one property become pieces with another one. -/
def Turns (q : List Tree → Prop) (r : Reader α) (q' : List Tree → Prop) : Prop :=
  ∀ ⦃text rules⦄, Rules.Sound text rules → ∀ ⦃context s a t⦄,
    r.run rules context s = some (a, t) → t.errors = [] → q s.pieces → q' t.pieces

/-! ### Words and their combinations -/

theorem Turns.mono (h : Turns q r q') (hq : ∀ pieces, q' pieces → q'' pieces) : Turns q r q'' :=
  fun _ _ hrules _ _ _ _ hrun ht hs => hq _ (h hrules hrun ht hs)

theorem turns_bind (hr : Turns q r q') (hf : ∀ a, Turns q' (f a) q'') : Turns q (r >>= f) q'' := by
  intro text rules hrules context s b u hrun hu hs
  obtain ⟨a, t, hr', hf'⟩ := run_bind_eq_some.1 hrun
  have ht := errors_eq_nil_of_suffix (grows_run hrules.grows (f a) hf') hu
  exact hf a hrules hf' hu (hr hrules hr' ht hs)

theorem turns_of_asks (q : List Tree → Prop) (r : Reader α) [Asks r] : Turns q r q := by
  intro text rules hrules context s a t hrun _ hs
  rwa [Asks.eq hrun]

theorem turns_branch {question : Reader Bool} {x y : Reader α} (hquestion : Turns q question q')
    (hx : Turns q' x q'') (hy : Turns q' y q'') :
    Turns q (question >>= fun b => if b = true then x else y) q'' := by
  refine turns_bind hquestion fun b => ?_
  split
  · exact hx
  · exact hy

/-- What new pieces on top do not destroy, a reader keeps that leaves the old ones alone. -/
theorem turns_onlyAdds (hr : r.OnlyAdds) (hq : ∀ newer older, q older → q (newer ++ older)) :
    Turns q r q := by
  intro text rules hrules context s a t hrun _ hs
  obtain ⟨newer, hnewer⟩ := adds_run hrules.adds r hr hrun
  rw [← hnewer]
  exact hq newer s.pieces hs

theorem turns_advance_by (q : List Tree → Prop) (scan : Scan) : Turns q (.advance scan) q := by
  intro text rules hrules context s a t hrun _ hs
  cases hrun
  rwa [State.pieces_advance]

theorem turns_rescan (q : List Tree → Prop) (scan : Rescan) : Turns q (.rescan scan) q := by
  intro text rules hrules context s a t hrun _ hs
  cases hrun
  exact hs

theorem turns_report (q q' : List Tree → Prop) (problem : SyntaxProblem) :
    Turns q (report problem) q' := by
  intro text rules hrules context s a t hrun ht _
  cases hrun
  exact absurd ht (State.errors_report_ne_nil _ _ _)

theorem turns_missing (q q' : List Tree → Prop) (problem : SyntaxProblem) :
    Turns q (missing problem) q' :=
  turns_bind (turns_report q (fun _ => False) problem) fun _ _ _ _ _ _ _ _ _ _ h => h.elim

/-- The pieces of an inner construct. -/
theorem turns_scope (h : Turns (· = []) r q) : Turns (· = []) (scope r) q := by
  intro text rules hrules context s a u hrun hu hs
  obtain ⟨t, hinner, rfl⟩ := run_scope_eq_some.1 hrun
  have ht := h hrules hinner hu rfl
  show q (t.pieces ++ s.pieces)
  rwa [hs, List.append_nil]

theorem turns_repeatWhile {step : Reader Bool} (h : Turns q step q) :
    Turns q (repeatWhile step) q := by
  have hstep : Turns q (do if ← step then return none else return some ()) q :=
    turns_branch h (turns_of_asks q _) (turns_of_asks q _)
  exact fun _ _ hrules _ _ _ _ hrun hu hs =>
    iterate_clean_induction (p := fun s => q s.pieces) (grows_run hrules.grows _)
      (fun _ _ _ hs hnext ht => hstep hrules hnext ht hs) _ hs hrun hu

theorem turns_repeatedly {question : Reader Bool} {item : Reader Unit}
    (hquestion : Turns q question q') (hno : ∀ pieces, q' pieces → q pieces)
    (hitem : Turns q' item q) : Turns q (repeatedly question item) q :=
  turns_repeatWhile <| turns_branch hquestion
    (turns_bind hitem fun _ => turns_of_asks q _) ((turns_of_asks q' _).mono hno)

theorem turns_accept? (q : List Tree → Prop) (k : TokenKind) [IsFalse (isEnd k)] :
    Turns q (accept? k) q :=
  turns_branch (turns_of_asks q _)
    (turns_bind (turns_advance_by q .code) fun _ => turns_of_asks q _) (turns_of_asks q _)

theorem turns_tagEnd (q : List Tree → Prop) (textFollows : Bool) :
    Turns q (tagEnd textFollows) q :=
  turns_branch (turns_of_asks q _) (turns_advance_by q _) (turns_report q q _)

/-! ### Names -/

/-- A name on top of pieces with some property. -/
def Named (q : List Tree → Prop) (pieces : List Tree) : Prop :=
  ∃ name older, pieces = name :: older ∧ name.IsName ∧ q older

/-- The first of the pieces is a name. -/
def BeginsWithName (pieces : List Tree) : Prop :=
  ∃ newer name, pieces = newer ++ [name] ∧ name.IsName

theorem BeginsWithName.append (newer : List Tree) {older : List Tree} (h : BeginsWithName older) :
    BeginsWithName (newer ++ older) := by
  obtain ⟨pieces, name, rfl, hname⟩ := h
  exact ⟨newer ++ pieces, name, by simp, hname⟩

theorem Named.eq_singleton {pieces : List Tree} (h : Named (· = []) pieces) :
    ∃ name, pieces = [name] ∧ name.IsName := by
  obtain ⟨name, older, rfl, hname, rfl⟩ := h
  exact ⟨name, rfl, hname⟩

theorem Named.beginsWithName {pieces : List Tree} (h : Named (· = []) pieces) :
    BeginsWithName pieces := by
  obtain ⟨name, rfl, hname⟩ := h.eq_singleton
  exact ⟨[], name, rfl, hname⟩

theorem turns_tokenNodeAs (q : List Tree → Prop) (k : TokenKind) :
    Turns q (tokenNodeAs (.token k)) (Named q) := by
  intro text rules hrules context s a t hrun _ hs
  cases hrun
  rw [State.pieces_advance]
  exact ⟨_, _, rfl, Tree.isName_leaf _ _ _, hs⟩

theorem turns_tokenNode (q : List Tree → Prop) : Turns q tokenNode (Named q) :=
  turns_bind (turns_of_asks q kind) fun k => turns_tokenNodeAs q k

theorem turns_identifierName (q : List Tree → Prop) : Turns q identifierName (Named q) :=
  turns_branch (turns_of_asks q _) (turns_tokenNodeAs q _) <|
    turns_branch (turns_of_asks q _) (turns_tokenNode q) (turns_missing q _ _)

theorem turns_markupIdentifier (q : List Tree → Prop) : Turns q markupIdentifier (Named q) :=
  turns_branch (turns_of_asks q _)
    (turns_bind (turns_rescan q _) fun _ => turns_tokenNodeAs q _) (turns_missing q _ _)

/-- Two names become the parts of one. -/
theorem turns_wrap_name {k : NodeKind} (hk : Tree.isNamePart k = true) :
    Turns (Named (Named (· = []))) (wrap k) (Named (· = [])) := by
  intro text rules hrules context s a t hrun _ hs
  cases hrun
  obtain ⟨second, _, hpieces, hsecond, hfirst⟩ := hs
  obtain ⟨first, rfl, hfirst'⟩ := hfirst.eq_singleton
  have hparts : ∀ part ∈ s.pieces.reverse, part.IsName := by
    simp [hpieces, hfirst', hsecond]
  exact ⟨_, [], rfl, Tree.IsName.node hk hparts, rfl⟩

theorem turns_accessedNames : Turns (Named (· = [])) accessedNames (Named (· = [])) :=
  turns_repeatedly (turns_accept? _ _) (fun _ => id)
    (turns_bind (turns_identifierName _) fun _ => turns_wrap_name rfl)

theorem turns_namespace : Turns (Named (· = [])) (do
    markupIdentifier
    wrap .jsxNamespacedName) (Named (· = [])) :=
  turns_bind (turns_markupIdentifier _) fun _ => turns_wrap_name rfl

theorem turns_tagName : Turns (· = []) tagName (Named (· = [])) :=
  turns_scope <| turns_branch (turns_of_asks _ _)
    (turns_bind (turns_tokenNode _) fun _ => turns_accessedNames)
    (turns_bind (turns_markupIdentifier _) fun _ =>
      turns_branch (turns_accept? _ _) turns_namespace turns_accessedNames)

theorem turns_attributeName : Turns (· = []) attributeName (Named (· = [])) :=
  turns_scope <| turns_bind (turns_markupIdentifier _) fun _ =>
    turns_branch (turns_accept? _ _) turns_namespace (turns_of_asks _ _)

end ExpectError.Grammar
