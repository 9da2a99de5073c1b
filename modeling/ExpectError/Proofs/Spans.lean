import ExpectError.Proofs.Ancestors
import ExpectError.Proofs.MarkupProductions

/-!
# Nodes lie on tokens

A construct is opened at the token at hand and closed behind the last consumed token. So a node with
at least one byte starts where a token starts and stops where a token stops, whatever reader makes
it, provided that the construct of which it is made was itself opened at a token. Only the outermost
construct was not, and no node is made of it but the root.

* `State.OnTokens`: the nodes that have been made lie on consumed tokens;
* `onTokens_run`: every reader keeps them there;
* `SourceFile.spans_of_read?`: where the nodes of a text that is read without errors lie.
-/

namespace ExpectError

/-! ### The end of the text -/

theorem Cursor.Ahead.eq_of_pos_eq {c d : Cursor} (h : c.Ahead d) (hpos : c.pos = d.pos) : c = d := by
  obtain ⟨passed, hrest, hd⟩ := h
  obtain rfl : passed = [] := Text.byteLength_eq_zero.1 (by omega)
  cases c
  cases d
  simp_all

theorem Cursor.Ahead.eq_of_rest_nil {c d : Cursor} (h : c.Ahead d) (hnil : c.rest = []) : c = d := by
  refine h.eq_of_pos_eq ?_
  obtain ⟨passed, hrest, hd⟩ := h
  rw [hnil] at hrest
  simp [(List.append_eq_nil_iff.1 hrest.symm).1] at hd
  exact hd.symm

/-- Only at the end of the text there is a token without characters. -/
def Scanner.Full (s : Scanner) : Prop :=
  s.start.rest ≠ [] → s.start.pos < s.stop.pos

namespace Grammar

variable {α : Type} {rules : Rules} {context : Context} {s t u : State} {text : List Char}

theorem Scan.full_apply (scan : Scan) (scanner : Scanner) : (scan.apply scanner).Full := by
  intro hne
  cases scan with
  | code => exact Lexeme.lt_read_of_ne_nil hne
  | attributeValue => exact Lexeme.lt_readAttributeValue_of_ne_nil hne
  | markup => exact Lexeme.lt_readMarkup_of_ne_nil hne

theorem Rescan.full_apply (scan : Rescan) {scanner : Scanner} (hsound : scanner.Sound text)
    (h : scanner.Full) : (scan.apply scanner).Full := by
  have hsame := State.sameStart_rescan scan hsound
  intro hne
  by_cases hend : scanner.kind = .endOfFile
  · rw [hsame.eq_of_end hend] at hne ⊢
    exact h hne
  · rw [hsame.start_eq]
    exact (hsame.lt hend).2

/-- Behind the end of the text there is nothing to move over. -/
theorem Scan.start_apply_of_full (scan : Scan) {scanner : Scanner} (hsound : scanner.Sound text)
    (hfull : scanner.Full) (h : ¬ scanner.start.pos < scanner.stop.pos) :
    (scan.apply scanner).start = scanner.start := by
  have hnil : scanner.start.rest = [] := by
    by_contra hne
    exact h (hfull hne)
  have hstop : scanner.start = scanner.stop := hsound.ahead.eq_of_rest_nil hnil
  have hahead : scanner.stop.Ahead (scan.apply scanner).start := by
    cases scan with
    | code => exact scanner.ahead_start_next
    | attributeValue => exact scanner.ahead_start_nextAttributeValue
    | markup => exact .refl _
  rw [hstop]
  exact (hahead.eq_of_rest_nil (hstop ▸ hnil)).symm

end Grammar

/-! ### Nodes on tokens -/

namespace Tree

open Grammar (Token)

/-- Every node with a byte starts where one of the tokens starts, and stops where one stops. -/
def EdgesAmong (tokens : List Token) (t : Tree) : Prop :=
  ∀ u ∈ t.preorder, u.start < u.stop →
    (∃ token ∈ tokens, token.start = u.start) ∧ ∃ token ∈ tokens, token.stop = u.stop

theorem EdgesAmong.mono {tokens tokens' : List Token} {t : Tree} (h : t.EdgesAmong tokens)
    (hsub : tokens ⊆ tokens') : t.EdgesAmong tokens' := by
  intro u hu hlt
  obtain ⟨⟨first, hfirst, hstart⟩, last, hlast, hstop⟩ := h u hu hlt
  exact ⟨⟨first, hsub hfirst, hstart⟩, last, hsub hlast, hstop⟩

theorem EdgesAmong.node {tokens : List Token} {kind : NodeKind} {start stop : ℕ}
    {children : List Tree}
    (hedges : start < stop →
      (∃ token ∈ tokens, token.start = start) ∧ ∃ token ∈ tokens, token.stop = stop)
    (h : ∀ t ∈ children, t.EdgesAmong tokens) :
    (Tree.node kind start stop children).EdgesAmong tokens := by
  intro u hu hlt
  rw [preorder, List.mem_cons, mem_preorderAll] at hu
  rcases hu with rfl | ⟨t, ht, hu⟩
  · exact hedges hlt
  · exact h t ht u hu hlt

end Tree

namespace Grammar

variable {α : Type} {rules : Rules} {context : Context} {s t u : State} {text : List Char}

/-- The last token stops where the state says, and the nodes that have been made lie on consumed
tokens. -/
structure State.OnTokens (text : List Char) (s : State) : Prop where
  sound : s.scanner.Sound text
  full : s.scanner.Full
  lastStop_le : s.lastStop ≤ s.position
  lastStop_mem : 0 < s.lastStop → ∃ token ∈ s.tokens, token.stop = s.lastStop
  edges : ∀ piece ∈ s.pieces, piece.EdgesAmong s.tokens

/-- The construct that is being read starts at the token at hand or at a consumed one. -/
def State.Anchored (s : State) : Prop :=
  s.start = s.position ∨ ∃ token ∈ s.tokens, token.start = s.start

/-- In the same construct, a state has been reached in which all nodes are on tokens still; either
the token at hand is where it was or it has been consumed. -/
structure State.StaysOnTokens (text : List Char) (s t : State) : Prop where
  onTokens : t.OnTokens text
  start_eq : t.start = s.start
  tokens : s.tokens <:+ t.tokens
  position : t.position = s.position ∨ ∃ token ∈ t.tokens, token.start = s.position

/-- All nodes stay on tokens. -/
def KeepsOnTokens (text : List Char) (f : Action α) : Prop :=
  ∀ ⦃context s a t⦄, s.OnTokens text → f context s = some (a, t) → s.StaysOnTokens text t

namespace State

theorem OnTokens.stays (h : s.OnTokens text) : s.StaysOnTokens text s :=
  ⟨h, rfl, List.suffix_rfl, Or.inl rfl⟩

theorem StaysOnTokens.trans (hst : s.StaysOnTokens text t) (htu : t.StaysOnTokens text u) :
    s.StaysOnTokens text u where
  onTokens := htu.onTokens
  start_eq := htu.start_eq.trans hst.start_eq
  tokens := hst.tokens.trans htu.tokens
  position := by
    rcases hst.position with heq | ⟨token, htoken, hstart⟩
    · exact heq ▸ htu.position
    · exact Or.inr ⟨token, htu.tokens.subset htoken, hstart⟩

theorem Anchored.of_stays (h : s.Anchored) (hst : s.StaysOnTokens text t) : t.Anchored := by
  rcases h with heq | ⟨token, htoken, hstart⟩
  · rcases hst.position with hpos | ⟨token, htoken, hstart⟩
    · exact Or.inl (by rw [hst.start_eq, heq, hpos])
    · exact Or.inr ⟨token, htoken, by rw [hst.start_eq, heq, hstart]⟩
  · exact Or.inr ⟨token, hst.tokens.subset htoken, by rw [hst.start_eq, hstart]⟩

/-- Behind the token at hand, whatever pieces there are. -/
theorem OnTokens.advance_of_edges (h : s.OnTokens text) (scan : Scan)
    (hedges : ∀ piece ∈ t.pieces, piece.EdgesAmong (s.advance scan).tokens) :
    s.StaysOnTokens text { s.advance scan with pieces := t.pieces } := by
  have hle := h.lastStop_le
  have hstop := h.sound.ahead.pos_le
  have hnext := stop_le_start_scan scan s.scanner
  refine ⟨⟨sound_scan scan h.sound, scan.full_apply s.scanner, ?_, ?_, hedges⟩, start_advance scan s,
    tokens_advance scan s, ?_⟩
  · show (s.advance scan).lastStop ≤ (scan.apply s.scanner).start.pos
    rw [lastStop_advance]
    unfold position at hle
    split <;> omega
  · show 0 < (s.advance scan).lastStop → _
    rw [lastStop_advance]
    split_ifs with hlt
    · exact fun _ => ⟨_, mem_tokens_advance hlt scan, rfl⟩
    · intro hpos
      obtain ⟨token, htoken, heq⟩ := h.lastStop_mem hpos
      exact ⟨token, (tokens_advance scan s).subset htoken, heq⟩
  · by_cases hlt : s.scanner.start.pos < s.scanner.stop.pos
    · exact Or.inr ⟨_, mem_tokens_advance hlt scan, rfl⟩
    · exact Or.inl (congrArg Cursor.pos (scan.start_apply_of_full h.sound h.full hlt))

theorem OnTokens.advance (h : s.OnTokens text) (scan : Scan) :
    s.StaysOnTokens text (s.advance scan) := by
  have hst : s.StaysOnTokens text { s.advance scan with pieces := s.pieces } :=
    h.advance_of_edges scan fun piece hpiece =>
      (h.edges piece hpiece).mono (tokens_advance scan s).subset
  rwa [← pieces_advance scan s] at hst

theorem OnTokens.leaf (h : s.OnTokens text) (kind : NodeKind) (scan : Scan) :
    s.StaysOnTokens text ((s.addPiece (s.leafHere kind)).advance scan) := by
  rw [advance_addPiece]
  refine h.advance_of_edges scan (List.forall_mem_cons.2 ⟨.node (fun hlt => ?_) (by simp), ?_⟩)
  · have hmem := mem_tokens_advance hlt scan
    exact ⟨⟨_, hmem, rfl⟩, _, hmem, rfl⟩
  · intro piece hpiece
    exact (h.edges piece hpiece).mono (tokens_advance scan s).subset

theorem OnTokens.rescan (h : s.OnTokens text) (scan : Rescan) :
    s.StaysOnTokens text (s.rescan scan) := by
  have hsame := sameStart_rescan scan h.sound
  have hpos : (s.rescan scan).position = s.position := congrArg Cursor.pos hsame.start_eq
  exact ⟨⟨h.sound.of_sameStart hsame, scan.full_apply h.sound h.full, hpos ▸ h.lastStop_le,
    h.lastStop_mem, h.edges⟩, rfl, List.suffix_rfl, Or.inl hpos⟩

theorem OnTokens.report (h : s.OnTokens text) (speculative : Bool) (problem : SyntaxProblem) :
    s.StaysOnTokens text (s.report speculative problem) := by
  unfold State.report
  split
  · exact h.stays
  · exact ⟨⟨h.sound, h.full, h.lastStop_le, h.lastStop_mem, h.edges⟩, rfl, List.suffix_rfl,
      Or.inl rfl⟩

/-- Other pieces of the same construct. -/
theorem OnTokens.withPieces (h : s.OnTokens text) {pieces : List Tree}
    (hedges : ∀ piece ∈ pieces, piece.EdgesAmong s.tokens) :
    s.StaysOnTokens text { s with pieces } :=
  ⟨⟨h.sound, h.full, h.lastStop_le, h.lastStop_mem, hedges⟩, rfl, List.suffix_rfl, Or.inl rfl⟩

/-- A node with a byte starts at a token, since one has been consumed in the construct. -/
theorem OnTokens.wrap (h : s.OnTokens text) (hanchored : s.Anchored) (kind : NodeKind) :
    s.StaysOnTokens text (s.wrap kind) := by
  refine h.withPieces (List.forall_mem_singleton.2 (.node (fun hlt => ?_) fun piece hpiece =>
    h.edges piece (List.mem_reverse.1 hpiece)))
  have hle := h.lastStop_le
  have hmax : max s.lastStop s.start = s.lastStop := by omega
  rw [hmax] at hlt ⊢
  refine ⟨?_, h.lastStop_mem (by omega)⟩
  rcases hanchored with heq | hmem
  · omega
  · exact hmem

theorem OnTokens.openScope (h : s.OnTokens text) : s.openScope.OnTokens text :=
  ⟨h.sound, h.full, h.lastStop_le, h.lastStop_mem, by simp [State.openScope]⟩

theorem OnTokens.closeScope (h : s.OnTokens text) (hst : s.openScope.StaysOnTokens text t) :
    s.StaysOnTokens text (t.closeScope s) where
  onTokens :=
    ⟨hst.onTokens.sound, hst.onTokens.full, hst.onTokens.lastStop_le, hst.onTokens.lastStop_mem,
      List.forall_mem_append.2 ⟨hst.onTokens.edges, fun piece hpiece =>
        (h.edges piece hpiece).mono hst.tokens.subset⟩⟩
  start_eq := rfl
  tokens := hst.tokens
  position := hst.position

end State

open State

/-- Whatever a reader does, the nodes stay on tokens, provided that it makes no node of the pieces
that are already there or that the construct starts at a token. -/
theorem onTokens_run (hrules : ∀ construct, KeepsOnTokens text (rules construct)) (r : Reader α)
    {a : α} (hs : s.OnTokens text) (hr : r.OnlyAdds ∨ s.Anchored)
    (hrun : r.run rules context s = some (a, t)) : s.StaysOnTokens text t := by
  induction r generalizing context s t with
  | pure | ask | mode | hasPieces => cases hrun; exact hs.stays
  | bind r f ihr ihf =>
    obtain ⟨b, u, hfirst, hsecond⟩ := run_bind_eq_some.1 hrun
    have hsu := ihr hs (hr.imp_left And.left) hfirst
    exact hsu.trans (ihf b hsu.onTokens (hr.imp (fun h => h.2 b) (·.of_stays hsu)) hsecond)
  | advance scan => cases hrun; exact hs.advance scan
  | rescan scan => cases hrun; exact hs.rescan scan
  | report problem => cases hrun; exact hs.report _ _
  | leaf kind scan => cases hrun; exact hs.leaf kind scan
  | emptyName =>
    cases hrun
    -- the empty name has no byte
    exact hs.withPieces (List.forall_mem_cons.2
      ⟨.node (fun hlt => absurd hlt (lt_irrefl _)) (by simp), hs.edges⟩)
  | wrap kind =>
    cases hrun
    exact hs.wrap (hr.resolve_left id) kind
  | dropPieces => cases hrun; exact hs.withPieces (by simp)
  | scope r ih =>
    obtain ⟨u, hinner, rfl⟩ := run_scope_eq_some.1 hrun
    -- inside, the construct starts at the token at hand
    exact hs.closeScope (ih hs.openScope (Or.inr (Or.inl rfl)) hinner)
  | moves r ih => exact ih hs hr (run_moves_eq_some.1 hrun).1
  | withoutError r ih => exact ih hs hr (run_withoutError_eq_some.1 hrun).1
  | lookAhead r ih =>
    obtain ⟨rfl, -⟩ := run_lookAhead_eq_some.1 hrun
    exact hs.stays
  | attempt r ih =>
    rcases run_attempt_eq_some hrun with ⟨-, rfl⟩ | ⟨-, hinner, -⟩
    · exact hs.stays
    · exact ih hs hr hinner
  | within change r ih => exact ih hs hr hrun
  | nested beyond inner ihb ihi =>
    simp only [Reader.run] at hrun
    split at hrun
    · have hreport := hs.report context.speculative .nestingTooDeep
      exact hreport.trans (ihb hreport.onTokens (hr.imp And.left (·.of_stays hreport)) hrun)
    · exact ihi hs (hr.imp_left And.right) hrun
  | loop step ih =>
    refine iterate_induction (p := s.StaysOnTokens text) (fun u b v hu hstep => ?_) _ hs.stays hrun
    exact hu.trans (ih hu.onTokens (hr.imp_right (·.of_stays hu)) hstep)
  | call construct => exact hrules construct hs hrun

theorem keepsOnTokens_rulesWithin (text : List Char) (n : ℕ) (construct : Construct) :
    KeepsOnTokens text (rulesWithin n construct) := by
  induction n generalizing construct with
  | zero => intro context s a t _ hrun; cases hrun
  | succ n ih =>
    intro context s a t hs hrun
    exact onTokens_run ih (produce construct) hs (Or.inl (onlyAdds_produce construct)) hrun

theorem onTokens_first (text : List Char) :
    State.OnTokens text (State.advance .code { scanner := Scanner.ofText text }) where
  sound := Scanner.sound_next (.refl _)
  full := Scan.full_apply .code _
  lastStop_le := Nat.zero_le _
  lastStop_mem h := absurd h (lt_irrefl _)
  edges := by simp

end Grammar

/-! ### Sisters -/

namespace Tree

open Grammar (Token)

/-- A node lies on tokens: it has a byte, it starts where a token starts and stops where a token
stops, and if it stands for a token it has the span of one. -/
structure CoversTokens (tokens : List Token) (t : Tree) : Prop where
  lt : t.start < t.stop
  starts : ∃ token ∈ tokens, token.start = t.start
  stops : ∃ token ∈ tokens, token.stop = t.stop
  leaf : ∀ kind, t.kind = .token kind → ∃ token ∈ tokens, token.start = t.start ∧ token.stop = t.stop

/-- The children of a node lie inside it and follow one another without overlap. -/
structure Ordered (t : Tree) : Prop where
  inside : ∀ child ∈ t.children, t.start ≤ child.start ∧ child.stop ≤ t.stop
  apart : t.children.Pairwise fun a b => a.stop ≤ b.start

variable {place : ℕ → Prop}

theorem Laid.pairwise {lo hi : ℕ} {ts : List Tree} (h : Laid place lo hi ts) :
    ts.Pairwise fun a b => a.stop ≤ b.start := by
  induction ts generalizing lo with
  | nil => exact .nil
  | cons t ts ih =>
    obtain ⟨-, -, -, hrest⟩ := h
    exact .cons (fun u hu => hrest.le_start_of_mem hu) (ih hrest)

theorem Filled.ordered {t : Tree} (h : Filled place t) : t.Ordered where
  inside child hchild := by
    obtain ⟨⟨hstart, -, hstop⟩, -⟩ := h.laid.of_mem hchild
    exact ⟨hstart, hstop⟩
  apart := h.laid.pairwise

theorem Filled.ordered_of_mem {t u : Tree} (h : Filled place t) (hu : u ∈ t.preorder) :
    u.Ordered := by
  rw [← map_node_paths, List.mem_map] at hu
  obtain ⟨path, hpath, rfl⟩ := hu
  exact (h.of_mem_pathsBelow t hpath).ordered

theorem Laid.lt_of_mem {lo hi : ℕ} {ts : List Tree} (h : Laid place lo hi ts) {u : Tree}
    (hu : u ∈ preorderAll ts) : u.start < u.stop := by
  rw [← map_node_pathsBelowAll [], List.mem_map] at hu
  obtain ⟨path, hpath, rfl⟩ := hu
  exact (inside_of_mem_pathsBelowAll ts h hpath).1.2.1

end Tree

namespace SourceFile

open Text
open ExpectError.Tree (preorderAll mem_preorderAll)

variable {dialect : Dialect} {text : List Char} {file : SourceFile}

theorem onTokens_of_run {context : Grammar.Context} {t : Grammar.State} {n : ℕ}
    (hrun : Grammar.wholeText.run (Grammar.rulesWithin n) context
      { scanner := Scanner.ofText text } = some ((), t)) : t.OnTokens text := by
  obtain ⟨_, u, hadvance, hitems⟩ := Grammar.run_bind_eq_some.1 hrun
  cases hadvance
  have hadds : (Grammar.itemsUntil [.endOfFile] .statementExpected
      (Grammar.call .statement)).OnlyAdds :=
    Grammar.onlyAdds_repeatWhile (Grammar.onlyAdds_branch ⟨trivial, fun _ => trivial⟩ trivial
      (Grammar.onlyAdds_branch trivial trivial ⟨trivial, fun _ => ⟨trivial, fun _ => trivial⟩⟩))
  exact (Grammar.onTokens_run (Grammar.keepsOnTokens_rulesWithin text n) _
    (Grammar.onTokens_first text) (Or.inl hadds) hitems).onTokens

/-- In a text that is read without errors, every node below the root lies on consumed tokens, the
children of every node lie inside it in the order of the text, and the root is the whole text. -/
theorem spans_of_read? (h : read? dialect text = some file) (hclean : file.errors = []) :
    (file.tree.start = 0 ∧ file.tree.stop = byteLength text) ∧
      (∀ u ∈ preorderAll file.tree.children, u.CoversTokens file.tokens) ∧
      ∀ u ∈ file.tree.preorder, u.Ordered := by
  have hfilled := filled_of_read? h hclean
  obtain ⟨context, t, hrun, hlead, htokens, htree⟩ := leads_of_read? h hclean
  have honTokens := onTokens_of_run hrun
  have hsub : t.tokens ⊆ file.tokens := by
    rw [htokens]
    exact fun token => List.mem_reverse.2
  refine ⟨by rw [htree]; exact ⟨rfl, rfl⟩, fun u hu => ?_, fun u => hfilled.ordered_of_mem⟩
  rw [htree] at hu hfilled
  have hlt := hfilled.laid.lt_of_mem hu
  obtain ⟨piece, hpiece, hmem⟩ := mem_preorderAll.1 hu
  have hpiece : piece ∈ t.pieces := List.mem_reverse.1 hpiece
  obtain ⟨hstarts, hstops⟩ := (honTokens.edges piece hpiece).mono hsub u hmem hlt
  exact ⟨hlt, hstarts, hstops, (hlead.good.leaves piece hpiece).mono hsub u hmem⟩

/-- A call whose type arguments end in two joined signs and whose argument is a template in parts. -/
theorem spans_of_read?_template :
    ∃ file, read? .standard "a<b<c>>(\x60x$\x7by\x7dz\x60);".toList = some file ∧
      file.errors = [] ∧ file.tree.size = 13 ∧ (file.tree.start = 0 ∧ file.tree.stop = 18) ∧
      (∀ u ∈ preorderAll file.tree.children, u.CoversTokens file.tokens) ∧
      ∀ u ∈ file.tree.preorder, u.Ordered := by
  have heval : (read? .standard "a<b<c>>(\x60x$\x7by\x7dz\x60);".toList).map
      (fun file => (file.errors, file.tree.size)) = some ([], 13) := by
    decide +kernel
  obtain ⟨file, hread, hfile⟩ := Option.map_eq_some_iff.1 heval
  obtain ⟨hclean, hsize⟩ := Prod.mk.inj hfile
  exact ⟨file, hread, hclean, hsize, spans_of_read? hread hclean⟩

end SourceFile

end ExpectError
