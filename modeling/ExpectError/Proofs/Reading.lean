import ExpectError.Grammar.Recursion
import ExpectError.Proofs.MarkupForm
import ExpectError.Proofs.Scanner

/-!
# Reading without errors

Errors that a run notes are never taken back by the run as a whole, so nothing in a run that ends
without errors noted one. In such a run the pieces of each construct stay laid out well: what the
words of the language do to the state is said here, word by word.

* `grows_run`: errors only grow;
* `State.Good`: the pieces of the construct that is being read are laid out and formed well;
* `State.Leads`: one good state leads to another while a construct is being read;
* `State.Good.leads_leaf`, `State.Good.leads_wrap`, `State.Good.leads_closeScope`: leaves, nodes and
  inner constructs.
-/

open ExpectError.Text (IsBoundary)
open ExpectError.Tree (isMarkupNode isTag Laid)

/-! ### Leaves and tokens -/

namespace ExpectError.Tree

open Grammar (Token)

/-- The nodes that stand for a token have the span of one of the tokens in a list. -/
def LeavesAmong (tokens : List Token) (t : Tree) : Prop :=
  ∀ u ∈ t.preorder, ∀ kind, u.kind = .token kind →
    ∃ token ∈ tokens, token.start = u.start ∧ token.stop = u.stop

theorem LeavesAmong.mono {tokens tokens' : List Token} {t : Tree} (h : t.LeavesAmong tokens)
    (hsub : tokens ⊆ tokens') : t.LeavesAmong tokens' := by
  intro u hu kind hkind
  obtain ⟨token, htoken, hspan⟩ := h u hu kind hkind
  exact ⟨token, hsub htoken, hspan⟩

theorem LeavesAmong.node {tokens : List Token} {kind : NodeKind} (hkind : ∀ k, kind ≠ .token k)
    {start stop : ℕ} {children : List Tree} (h : ∀ t ∈ children, t.LeavesAmong tokens) :
    (Tree.node kind start stop children).LeavesAmong tokens := by
  intro u hu k hk
  rw [preorder, List.mem_cons, mem_preorderAll] at hu
  rcases hu with rfl | ⟨t, ht, hu⟩
  · exact absurd hk (hkind k)
  · exact h t ht u hu k hk

theorem leavesAmong_leaf {tokens : List Token} {token : Token} (h : token ∈ tokens)
    (kind : NodeKind) : (leaf kind token.start token.stop).LeavesAmong tokens := by
  intro u hu k _
  obtain rfl : u = leaf kind token.start token.stop := by
    simpa [leaf, preorder, preorderAll] using hu
  exact ⟨token, h, rfl, rfl⟩

end ExpectError.Tree

namespace ExpectError.Grammar

variable {α β : Type} {rules : Rules} {context : Context} {s t u : State}

/-! ### The parts of a run -/

theorem run_bind_eq_some {r : Reader α} {f : α → Reader β} {b : β} :
    (r >>= f).run rules context s = some (b, u) ↔
      ∃ a t, r.run rules context s = some (a, t) ∧ (f a).run rules context t = some (b, u) := by
  change (Reader.bind r f).run rules context s = _ ↔ _
  rw [Reader.run_bind]
  cases r.run rules context s with
  | none => simp
  | some result => obtain ⟨a, t⟩ := result; simp

theorem run_pure_eq_some {a b : α} :
    (pure a : Reader α).run rules context s = some (b, t) ↔ b = a ∧ t = s := by
  change some (a, s) = some (b, t) ↔ _
  simp [eq_comm]

theorem run_scope_eq_some {r : Reader α} {a : α} :
    (Reader.scope r).run rules context s = some (a, u) ↔
      ∃ t, r.run rules context s.openScope = some (a, t) ∧ u = t.closeScope s := by
  simp only [Reader.run]
  cases r.run rules context s.openScope with
  | none => simp
  | some result => obtain ⟨b, t⟩ := result; aesop

theorem run_moves_eq_some {r : Reader Unit} {b : Bool} :
    (Reader.moves r).run rules context s = some (b, t) ↔
      r.run rules context s = some ((), t) ∧ b = decide (t.position ≠ s.position) := by
  simp only [Reader.run]
  cases r.run rules context s with
  | none => simp
  | some result => aesop

theorem run_withoutError_eq_some {r : Reader Unit} {b : Bool} :
    (Reader.withoutError r).run rules context s = some (b, t) ↔
      r.run rules context s = some ((), t) ∧ b = decide (t.errors.length = s.errors.length) := by
  simp only [Reader.run]
  cases r.run rules context s with
  | none => simp
  | some result => aesop

theorem run_lookAhead_eq_some {r : Reader α} {a : α} :
    (Reader.lookAhead r).run rules context s = some (a, u) ↔
      u = s ∧ ∃ t, r.run rules { context with speculative := true } s = some (a, t) := by
  simp only [Reader.run]
  cases r.run rules { context with speculative := true } s with
  | none => simp
  | some result => aesop

/-- What was tried is kept only if it says yes and noted no error. -/
theorem run_attempt_eq_some {r : Reader Bool} {b : Bool} :
    (Reader.attempt r).run rules context s = some (b, u) →
      (b = false ∧ u = s) ∨
        (b = true ∧ r.run rules { context with speculative := true } s = some (true, u) ∧
          u.errors.length = s.errors.length) := by
  simp only [Reader.run]
  cases r.run rules { context with speculative := true } s with
  | none => simp
  | some result =>
    obtain ⟨yes, t⟩ := result
    dsimp only
    split_ifs with h
    · rintro ⟨⟩
      simp_all
    · rintro ⟨⟩
      exact Or.inl ⟨rfl, rfl⟩

/-! ### Errors only grow -/

/-- What has been noted is never taken back by an action as a whole. -/
def Grows (f : Action α) : Prop :=
  ∀ ⦃context s a t⦄, f context s = some (a, t) → s.errors <:+ t.errors

theorem State.errors_report (speculative : Bool) (problem : SyntaxProblem) (s : State) :
    s.errors <:+ (s.report speculative problem).errors := by
  unfold State.report
  split
  · exact List.suffix_rfl
  · exact List.suffix_cons _ _

theorem State.pieces_report (speculative : Bool) (problem : SyntaxProblem) (s : State) :
    (s.report speculative problem).pieces = s.pieces := by
  unfold State.report
  split <;> rfl

@[simp] theorem State.errors_consume (s : State) : s.consume.errors = s.errors := by
  simp only [State.consume]
  split <;> rfl

/-- What each step keeps, any number of steps keep. -/
theorem iterate_induction {step : Action (Option α)} {p : State → Prop}
    (hstep : ∀ ⦃s b t⦄, p s → step context s = some (b, t) → p t) (n : ℕ) {a : α} (hs : p s)
    (hrun : iterate step n context s = some (a, t)) : p t := by
  induction n generalizing s with
  | zero => cases hrun
  | succ n ih =>
    simp only [iterate] at hrun
    split at hrun
    next => cases hrun
    next hlast => cases hrun; exact hstep hs hlast
    next hfirst => exact ih (hstep hs hfirst) hrun

theorem grows_iterate {step : Action (Option α)} (h : Grows step) (n : ℕ) :
    Grows (iterate step n) := fun _ s _ _ hrun =>
  iterate_induction (p := fun t => s.errors <:+ t.errors) (fun _ _ _ hs hstep => hs.trans (h hstep))
    n List.suffix_rfl hrun

theorem grows_run (hrules : ∀ construct, Grows (rules construct)) (r : Reader α) :
    Grows (r.run rules) := by
  induction r with
  | pure a => intro context s b t h; cases h; exact List.suffix_rfl
  | bind r f ihr ihf =>
    intro context s b u h
    obtain ⟨a, t, hr, hf⟩ := run_bind_eq_some.1 h
    exact (ihr hr).trans (ihf a hf)
  | ask question => intro context s b t h; cases h; exact List.suffix_rfl
  | mode => intro context s b t h; cases h; exact List.suffix_rfl
  | advance scan =>
    intro context s b t h
    cases h
    simp [State.advance]
  | rescan scan => intro context s b t h; cases h; exact List.suffix_rfl
  | report problem => intro context s b t h; cases h; exact State.errors_report _ _ _
  | leaf kind scan =>
    intro context s b t h
    cases h
    simp [State.advance, State.addPiece]
  | emptyName => intro context s b t h; cases h; exact List.suffix_rfl
  | wrap kind => intro context s b t h; cases h; exact List.suffix_rfl
  | hasPieces => intro context s b t h; cases h; exact List.suffix_rfl
  | dropPieces => intro context s b t h; cases h; exact List.suffix_rfl
  | scope r ih =>
    intro context s b u h
    obtain ⟨t, hr, rfl⟩ := run_scope_eq_some.1 h
    show s.openScope.errors <:+ t.errors
    exact ih hr
  | moves r ih => exact fun context s b u h => ih (run_moves_eq_some.1 h).1
  | withoutError r ih => exact fun context s b u h => ih (run_withoutError_eq_some.1 h).1
  | lookAhead r ih =>
    intro context s b u h
    obtain ⟨rfl, -⟩ := run_lookAhead_eq_some.1 h
    exact List.suffix_rfl
  | attempt r ih =>
    intro context s b u h
    rcases run_attempt_eq_some h with ⟨-, rfl⟩ | ⟨-, hr, -⟩
    · exact List.suffix_rfl
    · exact ih hr
  | within change r ih => exact fun context s b u h => ih h
  | nested beyond inner ihb ihi =>
    intro context s b u h
    simp only [Reader.run] at h
    split at h
    · exact (State.errors_report _ _ _).trans (ihb h)
    · exact ihi h
  | loop step ih => exact fun context s b u h => grows_iterate ih _ h
  | call construct => exact hrules construct

theorem grows_rulesWithin (n : ℕ) (construct : Construct) : Grows (rulesWithin n construct) := by
  induction n generalizing construct with
  | zero => intro context s a t h; cases h
  | succ n ih => exact grows_run ih (produce construct)

theorem errors_eq_nil_of_suffix (h : s.errors <:+ t.errors) (ht : t.errors = []) :
    s.errors = [] :=
  List.suffix_nil.1 (ht ▸ h)

/-- What each step without errors keeps, any number of steps without errors keep. -/
theorem iterate_clean_induction {step : Action (Option α)} {p : State → Prop} (h : Grows step)
    (hstep : ∀ ⦃s b t⦄, p s → step context s = some (b, t) → t.errors = [] → p t) (n : ℕ) {a : α}
    (hs : p s) (hrun : iterate step n context s = some (a, t)) (ht : t.errors = []) : p t :=
  iterate_induction (p := fun s => s.errors = [] → p s)
    (fun _ _ _ hs hnext ht => hstep (hs (errors_eq_nil_of_suffix (h hnext) ht)) hnext ht)
    n (fun _ => hs) hrun ht

theorem State.errors_report_ne_nil (speculative : Bool) (problem : SyntaxProblem) (s : State) :
    (s.report speculative problem).errors ≠ [] := by
  unfold State.report
  split_ifs with h
  · intro hnil
    simp [State.errorNotedHere, hnil] at h
  · simp

/-- Behind a noted error no run is without errors. -/
theorem errors_ne_nil_of_run_report (hrules : ∀ construct, Grows (rules construct))
    {problem : SyntaxProblem} {f : Unit → Reader β} {b : β}
    (hrun : (report problem >>= f).run rules context s = some (b, u)) : u.errors ≠ [] := by
  intro hu
  obtain ⟨_, t, hreport, hf⟩ := run_bind_eq_some.1 hrun
  cases hreport
  exact State.errors_report_ne_nil _ _ _ (errors_eq_nil_of_suffix (grows_run hrules _ hf) hu)

/-- A nested construct that is read without errors is not nested too deep. -/
theorem exists_run_of_run_nested (hrules : ∀ construct, Grows (rules construct))
    {beyond inner : Reader Unit} {a : Unit}
    (hrun : (nested beyond inner).run rules context s = some (a, t)) (ht : t.errors = []) :
    ∃ context', inner.run rules context' s = some (a, t) := by
  change (Reader.nested beyond inner).run rules context s = _ at hrun
  simp only [Reader.run] at hrun
  split_ifs at hrun
  · exact absurd (errors_eq_nil_of_suffix (grows_run hrules beyond hrun) ht)
      (State.errors_report_ne_nil _ _ _)
  · exact ⟨_, hrun⟩

/-! ### Good states -/

namespace State

/-- Behind a token the scanner stands on the next one, and the pieces of the construct that is being
read are laid out well between its start and the end of the last token, with nodes of markup that are
formed well and leaves that are consumed tokens; none of them stands for the whole file. -/
structure Good (text : List Char) (s : State) : Prop where
  scanner : s.scanner.Sound text
  lastStop_le : s.lastStop ≤ s.position
  start_le : s.start ≤ s.position
  place_start : IsBoundary text s.start
  place_lastStop : IsBoundary text s.lastStop
  laid : Laid (IsBoundary text) s.start s.lastStop s.pieces.reverse
  formed : ∀ piece ∈ s.pieces, piece.AllFormed
  leaves : ∀ piece ∈ s.pieces, piece.LeavesAmong s.tokens
  inner : ∀ piece ∈ s.pieces, piece.Inner

/-- No piece of the construct is a tag. -/
def Untagged (s : State) : Prop :=
  ∀ piece ∈ s.pieces, isTag piece.kind = false

/-- A token of the construct has been consumed. -/
def Begun (s : State) : Prop :=
  s.start < s.lastStop

/-- The token at hand is not the end of the file. -/
def AtToken (s : State) : Prop :=
  s.scanner.kind ≠ .endOfFile

/-- The good state `t` is reached from `s` in the same construct. -/
structure Reaches (text : List Char) (s t : State) : Prop where
  good : t.Good text
  start_eq : t.start = s.start
  lastStop_le : s.lastStop ≤ t.lastStop
  position_le : s.position ≤ t.position
  tokens : s.tokens <:+ t.tokens

/-- The good state `t` is reached from `s` in the same construct, and no tag is left behind. -/
structure Leads (text : List Char) (s t : State) : Prop extends Reaches text s t where
  untagged : s.Untagged → t.Untagged

/-- Between two states, the token at hand in the first one has been consumed. -/
def Eaten (s t : State) : Prop :=
  s.position < t.lastStop

variable {text : List Char}

theorem Good.leads (h : s.Good text) : s.Leads text s :=
  ⟨⟨h, rfl, le_rfl, le_rfl, List.suffix_rfl⟩, id⟩

theorem Reaches.trans (hst : s.Reaches text t) (htu : t.Reaches text u) : s.Reaches text u :=
  ⟨htu.good, htu.start_eq.trans hst.start_eq, hst.lastStop_le.trans htu.lastStop_le,
    hst.position_le.trans htu.position_le, hst.tokens.trans htu.tokens⟩

theorem Leads.trans (hst : s.Leads text t) (htu : t.Leads text u) : s.Leads text u :=
  ⟨hst.toReaches.trans htu.toReaches, htu.untagged ∘ hst.untagged⟩

theorem Begun.of_reaches (h : s.Begun) (hst : s.Reaches text t) : t.Begun := by
  have := hst.start_eq
  have := hst.lastStop_le
  unfold Begun at *
  omega

theorem Eaten.begun (h : s.Eaten t) (hs : s.Good text) (hst : s.Reaches text t) : t.Begun := by
  have := hs.start_le
  have := hst.start_eq
  unfold Eaten at h
  unfold Begun
  omega

theorem Eaten.of_reaches (h : s.Eaten t) (htu : t.Reaches text u) : s.Eaten u :=
  lt_of_lt_of_le h htu.lastStop_le

theorem Reaches.eaten (hst : s.Reaches text t) (h : t.Eaten u) : s.Eaten u :=
  lt_of_le_of_lt hst.position_le h

/-! #### Consuming a token -/

@[simp] theorem start_advance (scan : Scan) (s : State) : (s.advance scan).start = s.start := by
  simp only [advance, consume]
  split <;> rfl

@[simp] theorem pieces_advance (scan : Scan) (s : State) : (s.advance scan).pieces = s.pieces := by
  simp only [advance, consume]
  split <;> rfl

theorem lastStop_advance (scan : Scan) (s : State) :
    (s.advance scan).lastStop =
      if s.scanner.start.pos < s.scanner.stop.pos then s.scanner.stop.pos else s.lastStop := by
  simp only [advance, consume]
  split <;> rfl

theorem tokens_advance (scan : Scan) (s : State) : s.tokens <:+ (s.advance scan).tokens := by
  simp only [advance, consume]
  split
  · exact List.suffix_cons _ _
  · exact List.suffix_rfl

/-- A token with characters is recorded as it is consumed. -/
theorem mem_tokens_advance (h : s.scanner.start.pos < s.scanner.stop.pos) (scan : Scan) :
    ({ kind := s.scanner.kind, start := s.scanner.start.pos, stop := s.scanner.stop.pos } : Token) ∈
      (s.advance scan).tokens := by
  simp [advance, consume, h]

theorem sound_scan_of_ahead (scan : Scan) {scanner : Scanner}
    (h : (Cursor.ofText text).Ahead scanner.stop) : (scan.apply scanner).Sound text := by
  cases scan with
  | code => exact Scanner.sound_next h
  | attributeValue => exact Scanner.sound_nextAttributeValue h
  | markup => exact Scanner.sound_nextMarkup h

theorem sound_scan (scan : Scan) {scanner : Scanner} (h : scanner.Sound text) :
    (scan.apply scanner).Sound text :=
  sound_scan_of_ahead scan h.reached_stop

theorem stop_le_start_scan (scan : Scan) (scanner : Scanner) :
    scanner.stop.pos ≤ (scan.apply scanner).start.pos := by
  cases scan with
  | code => exact scanner.ahead_start_next.pos_le
  | attributeValue => exact scanner.ahead_start_nextAttributeValue.pos_le
  | markup => exact le_rfl

/-- Behind a token the scanner is sound again, whatever pieces there are. -/
theorem Good.advance_of_laid (h : s.Good text) (scan : Scan)
    (hlaid : Laid (IsBoundary text) s.start (s.advance scan).lastStop t.pieces.reverse)
    (hformed : ∀ piece ∈ t.pieces, piece.AllFormed)
    (hleaves : ∀ piece ∈ t.pieces, piece.LeavesAmong (s.advance scan).tokens)
    (hinner : ∀ piece ∈ t.pieces, piece.Inner) :
    Good text { s.advance scan with pieces := t.pieces } := by
  have hstop := h.scanner.ahead.pos_le
  have hnext := stop_le_start_scan scan s.scanner
  have hle := h.lastStop_le
  have hstart := h.start_le
  refine ⟨sound_scan scan h.scanner, ?_, ?_, ?_, ?_, ?_, hformed, hleaves, hinner⟩
  · show (s.advance scan).lastStop ≤ (scan.apply s.scanner).start.pos
    rw [lastStop_advance]
    unfold position at *
    split <;> omega
  · show (s.advance scan).start ≤ (scan.apply s.scanner).start.pos
    rw [start_advance]
    unfold position at *
    omega
  · show IsBoundary text (s.advance scan).start
    rw [start_advance]
    exact h.place_start
  · show IsBoundary text (s.advance scan).lastStop
    rw [lastStop_advance]
    split
    · exact h.scanner.reached_stop.isBoundary
    · exact h.place_lastStop
  · show Laid _ (s.advance scan).start _ _
    rw [start_advance]
    exact hlaid

theorem Good.lastStop_le_advance (h : s.Good text) (scan : Scan) :
    s.lastStop ≤ (s.advance scan).lastStop := by
  have := h.lastStop_le
  rw [lastStop_advance]
  unfold position at *
  split <;> omega

theorem Good.position_le_advance (h : s.Good text) (scan : Scan) :
    s.position ≤ (s.advance scan).position := by
  have := h.scanner.ahead.pos_le
  have := stop_le_start_scan scan s.scanner
  show s.scanner.start.pos ≤ (scan.apply s.scanner).start.pos
  omega

theorem Good.leads_advance (h : s.Good text) (scan : Scan) : s.Leads text (s.advance scan) where
  good := by
    have hgood : Good text { s.advance scan with pieces := s.pieces } :=
      h.advance_of_laid scan (h.laid.mono le_rfl (h.lastStop_le_advance scan)) h.formed
        (fun piece hpiece => (h.leaves piece hpiece).mono (tokens_advance scan s).subset) h.inner
    rwa [← pieces_advance scan s] at hgood
  start_eq := start_advance scan s
  lastStop_le := h.lastStop_le_advance scan
  position_le := h.position_le_advance scan
  tokens := tokens_advance scan s
  untagged hs := by simpa [Untagged] using hs

theorem Good.lastStop_advance_of_atToken (h : s.Good text) (hs : s.AtToken) (scan : Scan) :
    (s.advance scan).lastStop = s.scanner.stop.pos := by
  rw [lastStop_advance, if_pos (h.scanner.lt hs)]

theorem Good.eaten_advance (h : s.Good text) (hs : s.AtToken) (scan : Scan) :
    s.Eaten (s.advance scan) := by
  unfold Eaten
  rw [h.lastStop_advance_of_atToken hs]
  exact h.scanner.lt hs

theorem advance_addPiece (scan : Scan) (s : State) (piece : Tree) :
    (s.addPiece piece).advance scan =
      { s.advance scan with pieces := (s.addPiece piece).pieces } := by
  by_cases h : s.scanner.start.pos < s.scanner.stop.pos <;> simp [advance, consume, addPiece, h]

theorem Good.leads_leaf (h : s.Good text) (hs : s.AtToken) {kind : NodeKind}
    (hkind : isMarkupNode kind = false) (scan : Scan) :
    s.Leads text ((s.addPiece (s.leafHere kind)).advance scan) := by
  have hlt := h.scanner.lt hs
  have hle := h.lastStop_le
  have hstop := h.lastStop_advance_of_atToken hs scan
  rw [advance_addPiece]
  refine ⟨⟨h.advance_of_laid scan ?_ ?_ ?_ ?_, start_advance scan s, h.lastStop_le_advance scan,
    h.position_le_advance scan, tokens_advance scan s⟩, ?_⟩
  · -- the leaf lies behind the pieces and reaches to the end of the token
    have hleaf : Laid (IsBoundary text) s.position s.scanner.stop.pos [s.leafHere kind] :=
      Tree.laid_singleton.2 ⟨⟨le_rfl, hlt, le_rfl⟩,
        ⟨h.scanner.reached.isBoundary, h.scanner.reached_stop.isBoundary⟩, Tree.filled_leaf _ _ _⟩
    rw [hstop, addPiece, List.reverse_cons]
    exact (h.laid.mono le_rfl hle).append hleaf h.start_le hlt.le
  · exact List.forall_mem_cons.2 ⟨Tree.allFormed_leaf hkind _ _, h.formed⟩
  · exact List.forall_mem_cons.2 ⟨Tree.leavesAmong_leaf (mem_tokens_advance hlt scan) kind,
      fun piece hpiece => (h.leaves piece hpiece).mono (tokens_advance scan s).subset⟩
  · exact List.forall_mem_cons.2 ⟨Tree.inner_leaf (Tree.ne_sourceFile_of_isMarkupNode hkind) _ _,
      h.inner⟩
  · intro hun piece hpiece
    rcases List.mem_cons.1 hpiece with rfl | hpiece
    · exact Tree.isTag_eq_false hkind
    · exact hun piece hpiece

theorem Good.eaten_leaf (h : s.Good text) (hs : s.AtToken) (kind : NodeKind) (scan : Scan) :
    s.Eaten ((s.addPiece (s.leafHere kind)).advance scan) := by
  rw [advance_addPiece]
  exact h.eaten_advance hs scan

/-! #### Reading a token anew -/

theorem sameStart_rescan (scan : Rescan) {scanner : Scanner} (h : scanner.Sound text) :
    scanner.SameStart (scan.apply scanner) := by
  cases scan with
  | greater => exact Scanner.sameStart_rescanGreater h
  | slash => exact Scanner.sameStart_rescanSlash h
  | template => exact Scanner.sameStart_rescanTemplate h
  | markupName => exact Scanner.sameStart_extendMarkupName h

theorem Good.leads_rescan (h : s.Good text) (scan : Rescan) : s.Leads text (s.rescan scan) := by
  have hsame := sameStart_rescan scan h.scanner
  have hpos : (s.rescan scan).position = s.position := congrArg Cursor.pos hsame.start_eq
  exact ⟨⟨⟨h.scanner.of_sameStart hsame, hpos ▸ h.lastStop_le, hpos ▸ h.start_le, h.place_start,
    h.place_lastStop, h.laid, h.formed, h.leaves, h.inner⟩, rfl, le_rfl, hpos.ge, List.suffix_rfl⟩, id⟩

/-! #### Nodes -/

/-- A node of all pieces of a construct that has begun. -/
theorem Good.wrap (h : s.Good text) (hbegun : s.Begun) {kind : NodeKind}
    (hkind : ∀ k, kind ≠ .token k) (hinner : kind ≠ .sourceFile)
    (htags : Placement.isElement kind = true ∨ s.Untagged)
    (hform : (Tree.node kind s.start s.lastStop s.pieces.reverse).Formed) :
    (s.wrap kind).Good text := by
  have hlt : s.start < s.lastStop := hbegun
  have hmax : max s.lastStop s.start = s.lastStop := by omega
  have hnode : (Tree.node kind s.start (max s.lastStop s.start) s.pieces.reverse).AllFormed := by
    rw [hmax]
    exact .node hform fun piece hpiece => h.formed piece (List.mem_reverse.1 hpiece)
  refine ⟨h.scanner, h.lastStop_le, h.start_le, h.place_start, h.place_lastStop, ?_,
    List.forall_mem_singleton.2 hnode,
    List.forall_mem_singleton.2 (.node hkind fun piece hpiece =>
      h.leaves piece (List.mem_reverse.1 hpiece)),
    List.forall_mem_singleton.2 (.node hinner fun piece hpiece =>
      h.inner piece (List.mem_reverse.1 hpiece))⟩
  refine Tree.laid_singleton.2 ⟨⟨le_rfl, ?_, ?_⟩, ⟨h.place_start, ?_⟩, ?_⟩
  · show s.start < max s.lastStop s.start
    omega
  · show max s.lastStop s.start ≤ s.lastStop
    omega
  · show IsBoundary text (max s.lastStop s.start)
    rw [hmax]
    exact h.place_lastStop
  · rw [hmax, Tree.Filled]
    refine ⟨h.laid, fun piece hpiece htag => ?_⟩
    rcases htags with helement | hun
    · exact helement
    · have := hun piece (List.mem_reverse.1 hpiece)
      simp [htag] at this

theorem untagged_wrap {kind : NodeKind} (h : isTag kind = false) (s : State) :
    (s.wrap kind).Untagged := by
  intro piece hpiece
  rw [List.mem_singleton.1 hpiece]
  exact h

theorem Good.leads_wrap (h : s.Good text) (hbegun : s.Begun) {kind : NodeKind}
    (hkind : ∀ k, kind ≠ .token k) (hinner : kind ≠ .sourceFile)
    (htags : Placement.isElement kind = true ∨ s.Untagged)
    (hform : (Tree.node kind s.start s.lastStop s.pieces.reverse).Formed)
    (htag : isTag kind = false) : s.Leads text (s.wrap kind) :=
  ⟨⟨h.wrap hbegun hkind hinner htags hform, rfl, le_rfl, le_rfl, List.suffix_rfl⟩,
    fun _ => untagged_wrap htag s⟩

theorem Good.openScope (h : s.Good text) : s.openScope.Good text where
  scanner := h.scanner
  lastStop_le := h.lastStop_le
  start_le := le_rfl
  place_start := h.scanner.reached.isBoundary
  place_lastStop := h.place_lastStop
  laid := trivial
  formed := by simp [State.openScope]
  leaves := by simp [State.openScope]
  inner := by simp [State.openScope]

theorem untagged_openScope (s : State) : s.openScope.Untagged := by
  simp [Untagged, State.openScope]

/-- Behind an inner construct, its pieces follow those of the surrounding one. -/
theorem Good.reaches_closeScope (h : s.Good text) (hst : s.openScope.Reaches text t) :
    s.Reaches text (t.closeScope s) := by
  refine ⟨?_, rfl, hst.lastStop_le, hst.position_le, hst.tokens⟩
  have hstart : t.start = s.position := hst.start_eq
  have hlast : s.lastStop ≤ t.lastStop := hst.lastStop_le
  refine ⟨hst.good.scanner, hst.good.lastStop_le, h.start_le.trans hst.position_le, h.place_start,
    hst.good.place_lastStop, ?_, List.forall_mem_append.2 ⟨hst.good.formed, h.formed⟩,
    List.forall_mem_append.2 ⟨hst.good.leaves, fun piece hpiece =>
      (h.leaves piece hpiece).mono hst.tokens.subset⟩,
    List.forall_mem_append.2 ⟨hst.good.inner, h.inner⟩⟩
  show Laid _ s.start t.lastStop (t.pieces ++ s.pieces).reverse
  rw [List.reverse_append]
  rcases Nat.lt_or_ge t.lastStop s.position with hlt | hge
  · -- nothing was consumed, so there are no pieces
    have hnil : t.pieces.reverse = [] := by
      have hlaid := hst.good.laid
      rw [hstart] at hlaid
      cases hpieces : t.pieces.reverse with
      | nil => rfl
      | cons piece pieces =>
        rw [hpieces] at hlaid
        obtain ⟨⟨h₁, h₂, h₃⟩, -⟩ := hlaid
        omega
    rw [hnil, List.append_nil]
    exact h.laid.mono le_rfl hlast
  · exact (h.laid.mono le_rfl h.lastStop_le).append (hstart ▸ hst.good.laid) h.start_le hge

theorem Good.leads_closeScope (h : s.Good text) (hst : s.openScope.Reaches text t)
    (htags : t.Untagged) : s.Leads text (t.closeScope s) where
  toReaches := h.reaches_closeScope hst
  untagged hs := by
    intro piece hpiece
    rcases List.mem_append.1 hpiece with hpiece | hpiece
    · exact htags piece hpiece
    · exact hs piece hpiece

end State

end ExpectError.Grammar
