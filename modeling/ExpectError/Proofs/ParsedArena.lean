import ExpectError.Proofs.ArenaTrees
import ExpectError.Proofs.Lockstep
import ExpectError.Proofs.ParserSteps

/-!
# The arena of a text that has been read

A place is either not yet in use, or a piece of a construct that is being read, or a child, and it is
only one of these and only once. What has been read in vain is dropped from the end of the arena, and
the construct goes on with the pieces that it had before, none of which was dropped. Pieces that a
construct gives up are in no child list at all.

* `Arena.claims`: how often a place is a piece or a child, or still free;
* `tends_perform`: no reader raises it for any place;
* `Parser.Reads.arena_isTree`: below the root, the arena is a tree;
* `Parser.reads_of_read?`, `Parser.Reads.agrees`: texts are read as the readers say.
-/

namespace ExpectError

namespace Arena

variable {arena : Arena} {pieces : List ℕ} {i : ℕ}

/-- How often a place is a piece or a child. A place that is not yet in use counts as well. -/
def claims (arena : Arena) (pieces : List ℕ) (i : ℕ) : ℕ :=
  pieces.count i + (arena.flatMap (·.children)).count i + if arena.length ≤ i then 1 else 0

theorem claims_append (before : List ℕ) :
    arena.claims (before ++ pieces) i = before.count i + arena.claims pieces i := by
  simp only [claims, List.count_append]
  omega

/-- The pieces have become children of a new node, and this is a piece in their place. -/
theorem claims_addNode (kind : NodeKind) (start stop : ℕ) (children : List ℕ) :
    (arena.addNode kind start stop children).2.claims
        (pieces ++ [(arena.addNode kind start stop children).1]) i =
      arena.claims (pieces ++ children) i := by
  simp only [claims, addNode, List.flatMap_append, List.flatMap_singleton, List.count_append,
    List.count_singleton, List.length_append, List.length_singleton, beq_iff_eq]
  split_ifs <;> omega

/-- While a text is being read, pieces and children are places in use, children are in front of their
parents, and no parent has been entered. -/
structure Growing (arena : Arena) (pieces : List ℕ) : Prop where
  piece_lt : ∀ i ∈ pieces, i < arena.length
  child_lt : ∀ i, ∀ c ∈ arena.childrenOf i, c < i
  parentOf? : ∀ i, arena.parentOf? i = none

theorem childrenOf_addNode (kind : NodeKind) (start stop : ℕ) (children : List ℕ) :
    (arena.addNode kind start stop children).2.childrenOf i =
      if i = arena.length then children else arena.childrenOf i := by
  simp only [childrenOf, addNode, List.getElem?_append, List.getElem?_singleton]
  split_ifs with hlt heq heq hsub hsub
  · omega
  · rfl
  · rfl
  · omega
  · omega
  · rw [List.getElem?_eq_none (Nat.le_of_not_lt hlt)]

theorem parentOf?_addNode (kind : NodeKind) (start stop : ℕ) (children : List ℕ) :
    (arena.addNode kind start stop children).2.parentOf? i = arena.parentOf? i := by
  simp only [parentOf?, addNode, List.getElem?_append, List.getElem?_singleton]
  split_ifs with hlt hsub
  · rfl
  · rw [List.getElem?_eq_none (Nat.le_of_not_lt hlt)]
    rfl
  · rw [List.getElem?_eq_none (Nat.le_of_not_lt hlt)]

namespace Growing

theorem addNode {children : List ℕ} (h : arena.Growing (pieces ++ children)) (kind : NodeKind)
    (start stop : ℕ) :
    (arena.addNode kind start stop children).2.Growing
      (pieces ++ [(arena.addNode kind start stop children).1]) where
  piece_lt i hi := by
    simp only [Arena.addNode, List.length_append, List.length_singleton]
    rcases List.mem_append.1 hi with hi | hi
    · exact (h.piece_lt i (List.mem_append_left _ hi)).trans (Nat.lt_succ_self _)
    · rw [List.mem_singleton.1 hi]
      exact Nat.lt_succ_self _
  child_lt i c hc := by
    rw [childrenOf_addNode] at hc
    split_ifs at hc with hi
    · exact hi ▸ h.piece_lt c (List.mem_append_right _ hc)
    · exact h.child_lt i c hc
  parentOf? i := (parentOf?_addNode kind start stop children).trans (h.parentOf? i)

theorem of_subset {pieces' : List ℕ} (h : arena.Growing pieces) (hsub : pieces' ⊆ pieces) :
    arena.Growing pieces' :=
  { h with piece_lt := fun i hi => h.piece_lt i (hsub hi) }

/-- Pieces that have been kept while more nodes were added. -/
theorem append {arena' : Arena} {pieces' : List ℕ} (h : arena.Growing pieces)
    (hbefore : arena <+: arena') (h' : arena'.Growing pieces') :
    arena'.Growing (pieces ++ pieces') :=
  { h' with
    piece_lt := by
      refine List.forall_mem_append.2 ⟨fun i hi => ?_, h'.piece_lt⟩
      exact (h.piece_lt i hi).trans_le hbefore.length_le }

/-- All pieces have been made a node. -/
theorem wrap (h : arena.Growing pieces) (kind : NodeKind) (start stop : ℕ) :
    (arena.addNode kind start stop pieces).2.Growing [(arena.addNode kind start stop pieces).1] := by
  rw [← List.nil_append pieces] at h
  exact h.addNode kind start stop

/-- When no place has more than one use, the outermost node can be added, and it is above a forest. -/
theorem isForest (h : arena.Growing pieces) (hclaims : ∀ i, arena.claims pieces i ≤ 1)
    (kind : NodeKind) (start stop : ℕ) : (arena.addNode kind start stop pieces).2.IsForest where
  child_lt := (h.wrap kind start stop).child_lt
  nodup := by
    refine List.nodup_iff_count_le_one.2 fun i => ?_
    have hadd : (arena.addNode kind start stop pieces).2.claims
        ([] ++ [(arena.addNode kind start stop pieces).1]) i = arena.claims ([] ++ pieces) i :=
      claims_addNode kind start stop pieces
    have hone := hclaims i
    simp only [claims, List.nil_append] at hadd hone
    omega

end Growing

/-- Entering parents keeps the nodes. -/
theorem Keeps.of_unlinked {arena' : Arena} (h : arena'.unlinked = arena.unlinked) :
    arena.Keeps arena' := by
  intro place node hnode
  have hmap : (arena'[place]?).map (fun node => { node with parent := none }) =
      (arena[place]?).map (fun node => { node with parent := none }) := by
    simpa only [unlinked, List.getElem?_map] using congrArg (·[place]?) h
  rw [hnode] at hmap
  obtain ⟨node', hnode', heq⟩ := Option.map_eq_some_iff.1 hmap
  simp only [Node.mk.injEq] at heq
  exact ⟨node', hnode', heq.1, heq.2.1, heq.2.2.1, heq.2.2.2.2⟩

end Arena

namespace Grammar

variable {α β : Type} {rules : Construct → Procedure Unit} {rounds levels : ℕ} {frame g h : Frame}
  {p q u : Parser} {dialect : Dialect} {text : List Char} {parsed : Parsed}

/-! ### What readers do to the arena -/

/-- The nodes that have been added keep the arena growing, and no place has more uses than before. -/
structure Tends (frame : Frame) (p : Parser) (g : Frame) (q : Parser) : Prop where
  growing : q.arena.Growing g.pieces
  claims_le : ∀ i, q.arena.claims g.pieces i ≤ p.arena.claims frame.pieces i

/-- The procedure tends the arena. -/
def Tending (f : Procedure α) : Prop :=
  ∀ ⦃frame p a g q⦄, f frame p = some (a, g, q) → p.arena.Growing frame.pieces → Tends frame p g q

namespace Tends

theorem refl (hgrowing : p.arena.Growing frame.pieces) : Tends frame p frame p :=
  ⟨hgrowing, fun _ => le_rfl⟩

theorem trans (hpu : Tends frame p h u) (huq : Tends h u g q) : Tends frame p g q :=
  ⟨huq.growing, fun i => (huq.claims_le i).trans (hpu.claims_le i)⟩

/-- Some pieces have been made a node, the others are kept. -/
theorem addNode {pieces children : List ℕ} (hgrowing : p.arena.Growing frame.pieces)
    (hpieces : frame.pieces = pieces ++ children) (kind : NodeKind) (start stop : ℕ) :
    Tends frame p { frame with pieces := pieces ++ [(p.addNode kind start stop children).1] }
      (p.addNode kind start stop children).2 where
  growing := Arena.Growing.addNode (hpieces ▸ hgrowing) kind start stop
  claims_le i := by
    rw [hpieces]
    exact (Arena.claims_addNode kind start stop children).le

/-- Behind a construct of its own, whose pieces follow those that there were. -/
theorem closeScope {start : ℕ} (hgrowing : p.arena.Growing frame.pieces) (hextends : p.Extends q)
    (hinner : Tends { start } p h q) :
    Tends frame p { frame with pieces := frame.pieces ++ h.pieces } q where
  growing := hgrowing.append hextends.arena hinner.growing
  claims_le i := by
    have hle := hinner.claims_le i
    rw [Arena.claims_append]
    simp only [Arena.claims, List.count_nil] at hle ⊢
    omega

end Tends

theorem tends_repeatStep {step : Procedure (Option α)} (hstep : Tending step) (n : ℕ) :
    Tending (repeatStep step n) := by
  induction n with
  | zero => intro frame p a g q hrun; cases hrun
  | succ n ih =>
    intro frame p a g q hrun hgrowing
    simp only [repeatStep] at hrun
    split at hrun
    next => cases hrun
    next hrun' => cases hrun; exact hstep hrun' hgrowing
    next hrun' =>
      have hfirst := hstep hrun' hgrowing
      exact hfirst.trans (ih hrun hfirst.growing)

theorem Parser.arena_advance (scan : Scan) (p : Parser) : (p.advance scan).arena = p.arena := by
  simp only [advance, scanBy, recordToken]
  split <;> rfl

theorem Parser.arena_report (problem : SyntaxProblem) (p : Parser) :
    (p.report problem).arena = p.arena := by
  simp only [report]
  split <;> rfl

/-- Every reader tends the arena. -/
theorem tends_perform (hextends : ∀ construct, OnlyExtends (rules construct))
    (hrules : ∀ construct, Tending (rules construct)) (r : Reader α) :
    Tending (r.perform rules rounds) := by
  induction r with
  | pure | ask | mode | hasPieces =>
    intro frame p a g q hrun hgrowing
    cases hrun
    exact .refl hgrowing
  | rescan scan =>
    intro frame p a g q hrun hgrowing
    cases hrun
    exact ⟨hgrowing, fun _ => le_rfl⟩
  | advance scan =>
    intro frame p a g q hrun hgrowing
    cases hrun
    constructor <;> rw [Parser.arena_advance]
    exacts [hgrowing, fun _ => le_rfl]
  | report problem =>
    intro frame p a g q hrun hgrowing
    cases hrun
    constructor <;> rw [Parser.arena_report]
    exacts [hgrowing, fun _ => le_rfl]
  | dropPieces =>
    intro frame p a g q hrun hgrowing
    cases hrun
    refine ⟨hgrowing.of_subset (List.nil_subset _), fun i => ?_⟩
    simp only [Arena.claims, List.count_nil]
    omega
  | bind r f ihr ihf =>
    intro frame p b g q hrun hgrowing
    obtain ⟨a, h, u, hr, hf⟩ := perform_bind_eq_some.1 hrun
    have hfirst := ihr hr hgrowing
    exact hfirst.trans (ihf a hf hfirst.growing)
  | leaf kind scan =>
    intro frame p a g q hrun hgrowing
    cases hrun
    have hleaf := Tends.addNode hgrowing (List.append_nil _).symm kind p.position p.scanner.stop.pos
    constructor <;> rw [Parser.arena_advance]
    exacts [hleaf.growing, hleaf.claims_le]
  | emptyName =>
    intro frame p a g q hrun hgrowing
    cases hrun
    exact .addNode hgrowing (List.append_nil _).symm (.token .identifier) p.position p.position
  | wrap kind =>
    intro frame p a g q hrun hgrowing
    cases hrun
    exact .addNode hgrowing (List.nil_append _).symm kind frame.start (max p.lastStop frame.start)
  | scope r ih =>
    intro frame p a g q hrun hgrowing
    obtain ⟨h, hinner, rfl⟩ := perform_scope_eq_some.1 hrun
    exact .closeScope hgrowing (extends_perform hextends r hinner)
      (ih hinner (hgrowing.of_subset (List.nil_subset _)))
  | moves r ih =>
    exact fun frame p a g q hrun hgrowing => ih (perform_moves_eq_some.1 hrun).1 hgrowing
  | withoutError r ih =>
    exact fun frame p a g q hrun hgrowing => ih (perform_withoutError_eq_some.1 hrun).1 hgrowing
  | lookAhead r ih =>
    intro frame p a g q hrun hgrowing
    obtain ⟨h, u, hinner, rfl, rfl⟩ := perform_lookAhead_eq_some.1 hrun
    rw [(extends_perform hextends r hinner).exitSpeculation.restore_save]
    exact .refl hgrowing
  | attempt r ih =>
    intro frame p b g q hrun hgrowing
    obtain ⟨yes, h, u, hinner, ⟨-, -, -, rfl, rfl⟩ | ⟨-, -, rfl, rfl⟩⟩ := perform_attempt_eq_some hrun
    · have hkept := ih hinner hgrowing
      exact ⟨hkept.growing, hkept.claims_le⟩
    · rw [(extends_perform hextends r hinner).exitSpeculation.restore_save]
      exact .refl hgrowing
  | within change r ih =>
    intro frame p a g q hrun hgrowing
    obtain ⟨u, hinner, rfl⟩ := perform_within_eq_some.1 hrun
    have hkept := ih hinner hgrowing
    exact ⟨hkept.growing, hkept.claims_le⟩
  | nested beyond inner ihb ihi =>
    intro frame p a g q hrun hgrowing
    rcases perform_nested_eq_some hrun with ⟨-, hbeyond⟩ | ⟨-, u, hinner, rfl⟩
    · have harena := Parser.arena_report .nestingTooDeep p
      have hkept := ihb hbeyond (by rwa [harena])
      exact ⟨hkept.growing, fun i => harena ▸ hkept.claims_le i⟩
    · have hkept := ihi hinner hgrowing
      exact ⟨hkept.growing, hkept.claims_le⟩
  | loop step ih => exact tends_repeatStep ih _
  | call construct => exact hrules construct

theorem tends_performWithin (rounds levels : ℕ) (construct : Construct) :
    Tending (performWithin rounds levels construct) := by
  induction levels generalizing construct with
  | zero => intro frame p a g q hrun; cases hrun
  | succ levels ih => exact tends_perform (extends_performWithin rounds levels) ih (produce construct)

/-! ### Whole texts -/

/-- When the readers have come to the end of a text, the parents can be entered below the outermost
node, and then the arena is a tree. -/
theorem exists_linkParents?_of_perform
    (hrun : wholeText.perform (performWithin rounds levels) rounds {} (Parser.ofText dialect text) =
      some ((), frame, p)) (kind : NodeKind) (start stop : ℕ) :
    ∃ arena, (p.addNode kind start stop frame.pieces).2.arena.linkParents? p.arena.length =
        some arena ∧
      arena.unlinked = (p.addNode kind start stop frame.pieces).2.arena.unlinked ∧
      arena.IsTree p.arena.length := by
  have hnone : (Parser.ofText dialect text).arena.Growing ({} : Frame).pieces :=
    ⟨by simp, by simp [Parser.ofText, Arena.childrenOf], by simp [Parser.ofText, Arena.parentOf?]⟩
  have htends := tends_perform (extends_performWithin rounds levels)
    (tends_performWithin rounds levels) wholeText hrun hnone
  have hone : ∀ i, p.arena.claims frame.pieces i ≤ 1 := fun i =>
    (htends.claims_le i).trans (by simp [Arena.claims, Parser.ofText])
  have hnode := htends.growing.wrap kind start stop
  have hlength : (p.arena.addNode kind start stop frame.pieces).2.length = p.arena.length + 1 := by
    simp [Arena.addNode]
  refine (htends.growing.isForest hone kind start stop).exists_linkParents? (by omega)
    (fun i hroot => ?_) hnode.parentOf?
  have := hnode.child_lt i _ hroot
  have := Arena.lt_length_of_mem_childrenOf hroot
  omega

/-- Whatever the text, when it has been read, with or without errors, the arena is a tree below its
outermost node. -/
theorem Parser.Reads.arena_isTree (h : Parser.Reads dialect text parsed) :
    parsed.arena.IsTree parsed.root := by
  obtain ⟨rounds, levels, hparse⟩ := h
  obtain ⟨frame, p, arena, hrun, hlink, rfl⟩ := parseWithin_eq_some.1 hparse
  obtain ⟨arena', hlink', -, htree⟩ :=
    exists_linkParents?_of_perform hrun .sourceFile 0 (Text.byteLength text)
  cases hlink.symm.trans hlink'
  exact htree

/-- A text with an error, in which a parameter list has been tried in vain. -/
theorem Parser.Reads.arena_isTree_error :
    ∃ parsed, Parser.Reads .standard "(a, b) c".toList parsed ∧ parsed.errors ≠ [] ∧
      parsed.arena.IsTree parsed.root := by
  have herrors : (parseWithin 8 16 .standard "(a, b) c".toList).map (fun parsed =>
      parsed.errors.length) = some 1 := by
    decide +kernel
  obtain ⟨parsed, hparse, hlength⟩ := Option.map_eq_some_iff.1 herrors
  have hreads : Parser.Reads .standard "(a, b) c".toList parsed := ⟨8, 16, hparse⟩
  exact ⟨parsed, hreads, List.ne_nil_of_length_pos (by omega), hreads.arena_isTree⟩

/-! ### What is read -/

/-- A run that comes to an end does so too if it may have more rounds and levels. -/
theorem run_whole_of_le {m k l : ℕ} {r : Reader α} {a : α} {s t : State}
    (hrun : r.run (rulesWithin levels) (.whole k dialect) s = some (a, t)) (hlevels : levels ≤ m)
    (hrounds : k ≤ l) : r.run (rulesWithin m) (.whole l dialect) s = some (a, t) := by
  have hstep : Lockstep unguarded unguarded fun s t => s = t ∧ True :=
    lockstep_invariant (p := fun _ _ => True) (fun _ _ => id) (fun _ _ => id) unguarded
  rw [← guardedWithin_unguarded, ← Reader.guarded_unguarded] at hrun
  have hsize : (Context.whole k dialect).size ≤ l := hrounds
  obtain ⟨_, hmore, rfl, -⟩ := hstep.run r hlevels hsize ⟨rfl, trivial⟩ hrun
  rwa [guardedWithin_unguarded, Reader.guarded_unguarded] at hmore

/-- The end of the text as the parser reaches it, and the state that the readers say. -/
theorem exists_state_of_perform
    (hrun : wholeText.perform (performWithin rounds levels) rounds {} (Parser.ofText dialect text) =
      some ((), frame, p)) :
    ∃ s, wholeText.run (rulesWithin levels) (.whole rounds dialect)
      { scanner := Scanner.ofText text } = some ((), s) ∧
        p.Matches (.whole rounds dialect) s frame := by
  have halike := alike_wholeText rounds levels dialect text
  rw [hrun] at halike
  generalize wholeText.run (rulesWithin levels) (.whole rounds dialect)
    { scanner := Scanner.ofText text } = result at halike
  cases halike with
  | some hmatches => exact ⟨_, rfl, hmatches⟩

/-- Below the outermost node is the tree of the pieces, when the parents have been entered too. -/
theorem Parser.Matches.holds {context : Context} {s : State} {arena : Arena}
    (hmatches : p.Matches context s frame) (size : ℕ)
    (hunlinked : arena.unlinked =
      (p.addNode .sourceFile 0 size frame.pieces).2.arena.unlinked) :
    arena.Holds p.arena.length (.node .sourceFile 0 size s.pieces.reverse) :=
  (hmatches.pieces.holds_addNode .sourceFile 0 size).mono (.of_unlinked hunlinked)

/-- A text that the readers get through has been read with their tokens, errors and tree. -/
theorem Parser.Reads.agrees (h : Parser.Reads dialect text parsed) {file : SourceFile}
    (hread : SourceFile.read? dialect text = some file) :
    parsed.tokens = file.tokens ∧ parsed.errors = file.errors ∧
      parsed.arena.Holds parsed.root file.tree := by
  obtain ⟨rounds, levels, hparse⟩ := h
  obtain ⟨frame, p, arena, hrun, hlink, rfl⟩ := parseWithin_eq_some.1 hparse
  obtain ⟨arena', hlink', hunlinked, -⟩ :=
    exists_linkParents?_of_perform hrun .sourceFile 0 (Text.byteLength text)
  cases hlink.symm.trans hlink'
  obtain ⟨s, hs, hmatches⟩ := exists_state_of_perform hrun
  obtain ⟨⟨_, t⟩, ht, hfile⟩ := Option.bind_eq_some_iff.1 hread
  -- both runs are part of a run that may have the rounds and levels of both
  have hs' := run_whole_of_le hs (Nat.le_add_right levels (depthBound (Text.byteLength text)))
    (Nat.le_add_right rounds (Text.byteLength text))
  have ht' := run_whole_of_le (k := Text.byteLength text) ht
    (Nat.le_add_left (depthBound (Text.byteLength text)) levels)
    (Nat.le_add_left (Text.byteLength text) rounds)
  cases hs'.symm.trans ht'
  cases hfile
  exact ⟨hmatches.tokens, hmatches.errors, hmatches.holds _ hunlinked⟩

/-- A text that the readers get through is read by the parser. -/
theorem Parser.reads_of_read? {file : SourceFile}
    (hread : SourceFile.read? dialect text = some file) :
    ∃ parsed, Parser.Reads dialect text parsed := by
  obtain ⟨⟨_, t⟩, ht, -⟩ := Option.bind_eq_some_iff.1 hread
  have halike := alike_wholeText (Text.byteLength text) (depthBound (Text.byteLength text)) dialect
    text
  have ht' : wholeText.run (rulesWithin (depthBound (Text.byteLength text)))
      (.whole (Text.byteLength text) dialect) { scanner := Scanner.ofText text } = some ((), t) := ht
  rw [ht'] at halike
  cases hperform : wholeText.perform
      (performWithin (Text.byteLength text) (depthBound (Text.byteLength text)))
      (Text.byteLength text) {} (Parser.ofText dialect text) with
  | none => rw [hperform] at halike; cases halike
  | some result =>
    obtain ⟨⟨⟩, frame, p⟩ := result
    obtain ⟨arena, hlink, -⟩ :=
      exists_linkParents?_of_perform hperform .sourceFile 0 (Text.byteLength text)
    exact ⟨_, Text.byteLength text, depthBound (Text.byteLength text),
      parseWithin_eq_some.2 ⟨frame, p, arena, hperform, hlink, rfl⟩⟩

end Grammar

end ExpectError
