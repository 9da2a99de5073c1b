import ExpectError.Proofs.ParserFrame

/-!
# The parser and the states of readers

Step by step, the parser is in the state that the readers say: the token at hand, the tokens, the
errors and the mode are the same, and the places that a construct keeps are those of its pieces.

* `Arena.Holds`: a tree is found in the arena at a place;
* `Parser.Matches`: what the parser has to do with the state of a reader;
* `alike_perform`: whatever a reader does, it does alike to both;
* `alike_wholeText`: a whole text is read alike.
-/

namespace ExpectError

/-! ### Trees in an arena -/

namespace Arena

mutual

/-- The tree whose topmost node is at a place. -/
def Holds (arena : Arena) (place : ℕ) : Tree → Prop
  | .node kind start stop trees =>
    ∃ node, arena[place]? = some node ∧ node.kind = kind ∧ node.start = start ∧ node.stop = stop ∧
      HoldsAll arena node.children trees

/-- The trees whose topmost nodes are at some places. -/
def HoldsAll (arena : Arena) : List ℕ → List Tree → Prop
  | [], [] => True
  | place :: places, t :: ts => Holds arena place t ∧ HoldsAll arena places ts
  | _, _ => False

end

/-- The nodes of an arena are in another one, at the same places and with the same children. -/
def Keeps (arena arena' : Arena) : Prop :=
  ∀ ⦃place : ℕ⦄ ⦃node : Node⦄, arena[place]? = some node → ∃ node' : Node, arena'[place]? = some node' ∧
    node'.kind = node.kind ∧ node'.start = node.start ∧ node'.stop = node.stop ∧
      node'.children = node.children

variable {arena arena' : Arena}

theorem getElem?_of_isPrefix (h : arena <+: arena') {place : ℕ} {node : Node}
    (hnode : arena[place]? = some node) : arena'[place]? = some node := by
  obtain ⟨rest, rfl⟩ := h
  rw [List.getElem?_append_left (List.getElem?_eq_some_iff.1 hnode).1, hnode]

theorem Keeps.of_isPrefix (h : arena <+: arena') : arena.Keeps arena' :=
  fun _ node hnode => ⟨node, getElem?_of_isPrefix h hnode, rfl, rfl, rfl, rfl⟩

mutual

theorem Holds.mono (hkeeps : arena.Keeps arena') {place : ℕ} :
    ∀ {t : Tree}, arena.Holds place t → arena'.Holds place t
  | .node kind start stop trees, h => by
    rw [Holds] at h ⊢
    obtain ⟨node, hnode, hkind, hstart, hstop, hchildren⟩ := h
    obtain ⟨node', hnode', hkind', hstart', hstop', hchildren'⟩ := hkeeps hnode
    exact ⟨node', hnode', hkind'.trans hkind, hstart'.trans hstart, hstop'.trans hstop,
      hchildren' ▸ HoldsAll.mono hkeeps hchildren⟩

theorem HoldsAll.mono (hkeeps : arena.Keeps arena') :
    ∀ {places : List ℕ} {ts : List Tree}, arena.HoldsAll places ts → arena'.HoldsAll places ts
  | [], [], _ => by rw [HoldsAll]; trivial
  | [], _ :: _, h => by simp [HoldsAll] at h
  | _ :: _, [], h => by simp [HoldsAll] at h
  | _ :: _, _ :: _, h => by
    rw [HoldsAll] at h ⊢
    exact ⟨Holds.mono hkeeps h.1, HoldsAll.mono hkeeps h.2⟩

end

theorem holdsAll_nil : arena.HoldsAll [] [] := by
  rw [HoldsAll]
  trivial

theorem HoldsAll.append {places places' : List ℕ} {ts ts' : List Tree}
    (h : arena.HoldsAll places ts) (h' : arena.HoldsAll places' ts') :
    arena.HoldsAll (places ++ places') (ts ++ ts') := by
  induction places generalizing ts with
  | nil =>
    cases ts with
    | nil => exact h'
    | cons => simp [HoldsAll] at h
  | cons place places ih =>
    cases ts with
    | nil => simp [HoldsAll] at h
    | cons t ts =>
      simp only [HoldsAll] at h
      simp only [List.cons_append, HoldsAll]
      exact ⟨h.1, ih h.2⟩

theorem HoldsAll.length_eq {places : List ℕ} {ts : List Tree} (h : arena.HoldsAll places ts) :
    places.length = ts.length := by
  induction places generalizing ts with
  | nil =>
    cases ts with
    | nil => rfl
    | cons => simp [HoldsAll] at h
  | cons place places ih =>
    cases ts with
    | nil => simp [HoldsAll] at h
    | cons t ts =>
      simp only [HoldsAll] at h
      simp [ih h.2]

theorem HoldsAll.single {place : ℕ} {t : Tree} (h : arena.Holds place t) :
    arena.HoldsAll [place] [t] := by
  simp only [HoldsAll]
  exact ⟨h, trivial⟩

/-- The node that has just been added, above what its children hold. -/
theorem HoldsAll.holds_addNode {places : List ℕ} {ts : List Tree} (h : arena.HoldsAll places ts)
    (kind : NodeKind) (start stop : ℕ) :
    (arena.addNode kind start stop places).2.Holds (arena.addNode kind start stop places).1
      (.node kind start stop ts) := by
  rw [Holds]
  exact ⟨_, List.getElem?_concat_length, rfl, rfl, rfl,
    h.mono (.of_isPrefix (List.prefix_append _ _))⟩

end Arena

namespace Grammar

variable {α β : Type} {rules : Construct → Procedure Unit} {rules' : Rules} {rounds : ℕ}
  {context : Context} {s t : State} {frame g : Frame} {p q : Parser}

/-! ### Matching states -/

/-- The parser, and what the reader of a construct keeps itself, match a state in a context. -/
structure Parser.Matches (context : Context) (s : State) (frame : Frame) (p : Parser) : Prop where
  scanner : p.scanner = s.scanner
  token : p.token = s.scanner.kind
  lastStop : p.lastStop = s.lastStop
  tokens : p.tokens = s.tokens.reverse
  errors : p.errors = s.errors.reverse
  mode : p.mode = context.mode
  recursionDepth : p.recursionDepth = context.depth
  speculative : context.speculative = decide (p.speculationDepth ≠ 0)
  start : frame.start = s.start
  pieces : p.arena.HoldsAll frame.pieces s.pieces.reverse

namespace Parser.Matches

theorem position (h : p.Matches context s frame) : p.position = s.position :=
  congrArg (fun scanner : Scanner => scanner.start.pos) h.scanner

theorem errors_length (h : p.Matches context s frame) : p.errors.length = s.errors.length := by
  simp [h.errors]

theorem isEmpty_pieces (h : p.Matches context s frame) :
    frame.pieces.isEmpty = s.pieces.isEmpty := by
  have := h.pieces.length_eq
  cases hpieces : frame.pieces <;> cases hs : s.pieces <;> simp_all

theorem answerOf (h : p.Matches context s frame) (question : Question α) :
    question.answerOf p = question.answer s.scanner := by
  cases question with
  | kind => exact h.token
  | onNewLine => exact congrArg Scanner.lineBreakBefore h.scanner
  | isAssert => simp only [Question.answerOf, Question.answer, h.scanner]

theorem advance (h : p.Matches context s frame) (scan : Scan) :
    (p.advance scan).Matches context (s.advance scan) frame := by
  obtain ⟨hscanner, htoken, hlast, htokens, herrors, hmode, hdepth, hspeculative, hstart, hpieces⟩ := h
  simp only [Parser.advance, Parser.scanBy, Parser.recordToken, State.advance, State.consume, hscanner]
  split <;>
    constructor <;> simp_all

theorem rescan (h : p.Matches context s frame) (scan : Rescan) :
    (p.rescan scan).Matches context (s.rescan scan) frame := by
  obtain ⟨hscanner, htoken, hlast, htokens, herrors, hmode, hdepth, hspeculative, hstart, hpieces⟩ := h
  simp only [Parser.rescan, Parser.scanBy, State.rescan, hscanner]
  constructor <;> simp_all

theorem errorNotedHere (h : p.Matches context s frame) : p.errorNotedHere = s.errorNotedHere := by
  simp only [Parser.errorNotedHere, State.errorNotedHere, h.errors, List.getLast?_reverse,
    h.position]
  cases s.errors <;> rfl

theorem report (h : p.Matches context s frame) (problem : SyntaxProblem) :
    (p.report problem).Matches context (s.report context.speculative problem) frame := by
  have hskip : (!context.speculative && s.errorNotedHere) =
      (decide (p.speculationDepth = 0) && p.errorNotedHere) := by
    rw [h.speculative, h.errorNotedHere]
    simp
  have hposition := h.position
  unfold Parser.report State.report
  rw [hskip]
  split
  · exact h
  · obtain ⟨hscanner, htoken, hlast, htokens, herrors, hmode, hdepth, hspeculative, hstart, hpieces⟩ :=
      h
    constructor <;> simp_all [State.errorHere, State.position]

theorem openScope (h : p.Matches context s frame) :
    p.Matches context s.openScope { start := p.position } :=
  { h with start := h.position, pieces := Arena.holdsAll_nil }

theorem closeScope (h : p.Matches context s frame) (hextends : p.Extends q)
    (hq : q.Matches context t g) :
    q.Matches context (t.closeScope s) { frame with pieces := frame.pieces ++ g.pieces } :=
  { hq with
    start := h.start
    pieces := by
      have hall := (h.pieces.mono (.of_isPrefix hextends.arena)).append hq.pieces
      simpa [State.closeScope] using hall }

theorem addPiece (h : p.Matches context s frame) (kind : NodeKind) (start stop : ℕ) :
    (p.addNode kind start stop []).2.Matches context (s.addPiece (.leaf kind start stop))
      { frame with pieces := frame.pieces ++ [(p.addNode kind start stop []).1] } :=
  { h with
    pieces := by
      have hold := h.pieces.mono (.of_isPrefix (extends_addNode kind start stop [] p).arena)
      have hnew := (show p.arena.HoldsAll [] [] from Arena.holdsAll_nil).holds_addNode kind start stop
      have hall := hold.append (.single hnew)
      rwa [← List.reverse_cons] at hall }

theorem wrap (h : p.Matches context s frame) (kind : NodeKind) :
    (p.finishNode kind frame).2.Matches context (s.wrap kind)
      { frame with pieces := [(p.finishNode kind frame).1] } :=
  { h with
    pieces := by
      have hnew := h.pieces.holds_addNode kind frame.start (max p.lastStop frame.start)
      rw [h.start, h.lastStop] at hnew
      simpa [State.wrap, Parser.finishNode, h.start, h.lastStop] using .single hnew }

theorem enterSpeculation (h : p.Matches context s frame) :
    p.enterSpeculation.Matches { context with speculative := true } s frame :=
  { h with speculative := by simp [Parser.enterSpeculation] }

/-- Back in the context in which a reader began that may take back what it does. -/
theorem exitSpeculation (h : p.Matches context s frame) (hextends : p.enterSpeculation.Extends q)
    (hq : q.Matches { context with speculative := true } t g) :
    q.exitSpeculation.Matches context t g :=
  { hq with
    speculative := by
      rw [h.speculative, hextends.exitSpeculation.speculationDepth] }

theorem withMode (h : p.Matches context s frame) (change : Mode → Mode) :
    { p with mode := change p.mode }.Matches { context with mode := change context.mode } s frame :=
  { h with mode := congrArg change h.mode }

theorem enterRecursion (h : p.Matches context s frame) :
    p.enterRecursion.Matches { context with depth := context.depth + 1 } s frame :=
  { h with recursionDepth := congrArg (· + 1) h.recursionDepth }

end Parser.Matches

/-! ### Readers -/

/-- Either there is no answer in both cases, or the answers are the same and the parser matches the
state. -/
inductive Alike (context : Context) :
    Option (α × Frame × Parser) → Option (α × State) → Prop where
  | none : Alike context none none
  | some {a : α} {g : Frame} {q : Parser} {t : State} (h : q.Matches context t g) :
    Alike context (some (a, g, q)) (some (a, t))

theorem Alike.eq_none_or_eq_some {x : Option (α × Frame × Parser)} {y : Option (α × State)}
    (h : Alike context x y) :
    x = .none ∧ y = .none ∨
      ∃ a g q t, x = .some (a, g, q) ∧ y = .some (a, t) ∧ q.Matches context t g := by
  cases h with
  | none => exact Or.inl ⟨rfl, rfl⟩
  | some hq => exact Or.inr ⟨_, _, _, _, rfl, rfl, hq⟩

theorem alike_repeatStep {step : Procedure (Option α)} {step' : Action (Option α)}
    (h : ∀ {s frame p}, p.Matches context s frame → Alike context (step frame p) (step' context s))
    (n : ℕ) (hp : p.Matches context s frame) :
    Alike context (repeatStep step n frame p) (iterate step' n context s) := by
  induction n generalizing s frame p with
  | zero => exact .none
  | succ n ih =>
    simp only [repeatStep, iterate]
    rcases (h hp).eq_none_or_eq_some with ⟨hx, hy⟩ | ⟨a, g, q, t, hx, hy, hq⟩ <;> rw [hx, hy]
    · exact .none
    · cases a with
      | some a => exact .some hq
      | none => exact ih hq

/-- What a reader does to the parser matches what it does to the state, and it comes to an end in one
of the two cases if it does in the other. -/
theorem alike_perform (hextends : ∀ construct, OnlyExtends (rules construct))
    (hrules : ∀ construct {context s frame p}, context.size = rounds → p.Matches context s frame →
      Alike context (rules construct frame p) (rules' construct context s))
    (r : Reader α) (hsize : context.size = rounds) (hp : p.Matches context s frame) :
    Alike context (r.perform rules rounds frame p) (r.run rules' context s) := by
  induction r generalizing context s frame p with
  | pure a => exact .some hp
  | ask question =>
    simp only [Reader.perform, Reader.run, hp.answerOf]
    exact .some hp
  | mode =>
    simp only [Reader.perform, Reader.run, hp.mode]
    exact .some hp
  | hasPieces =>
    simp only [Reader.perform, Reader.run, hp.isEmpty_pieces]
    exact .some hp
  | advance scan => exact .some (hp.advance scan)
  | rescan scan => exact .some (hp.rescan scan)
  | report problem => exact .some (hp.report problem)
  | leaf kind scan =>
    have hleaf := (hp.addPiece kind p.position p.scanner.stop.pos).advance scan
    rw [hp.position, hp.scanner] at hleaf
    simp only [Reader.perform, Reader.run, hp.position, hp.scanner]
    exact .some hleaf
  | emptyName =>
    have hname := hp.addPiece (.token .identifier) p.position p.position
    rw [hp.position] at hname
    simp only [Reader.perform, Reader.run, hp.position]
    exact .some hname
  | wrap kind => exact .some (hp.wrap kind)
  | dropPieces => exact .some { hp with pieces := Arena.holdsAll_nil }
  | bind r f ihr ihf =>
    simp only [Reader.perform, Reader.run]
    rcases (ihr hsize hp).eq_none_or_eq_some with ⟨hx, hy⟩ | ⟨a, g, q, t, hx, hy, hq⟩ <;> rw [hx, hy]
    · exact .none
    · exact ihf a hsize hq
  | scope r ih =>
    simp only [Reader.perform, Reader.run]
    rcases (ih hsize hp.openScope).eq_none_or_eq_some with ⟨hx, hy⟩ | ⟨a, g, q, t, hx, hy, hq⟩ <;>
      rw [hx, hy]
    · exact .none
    · exact .some (hp.closeScope (extends_perform hextends r hx) hq)
  | moves r ih =>
    simp only [Reader.perform, Reader.run]
    rcases (ih hsize hp).eq_none_or_eq_some with ⟨hx, hy⟩ | ⟨a, g, q, t, hx, hy, hq⟩ <;> rw [hx, hy]
    · exact .none
    · simp only [hp.position, hq.position]
      exact .some hq
  | withoutError r ih =>
    simp only [Reader.perform, Reader.run]
    rcases (ih hsize hp).eq_none_or_eq_some with ⟨hx, hy⟩ | ⟨a, g, q, t, hx, hy, hq⟩ <;> rw [hx, hy]
    · exact .none
    · simp only [hp.errors_length, hq.errors_length]
      exact .some hq
  | lookAhead r ih =>
    simp only [Reader.perform, Reader.run]
    have hinner : { context with speculative := true }.size = rounds := hsize
    rcases (ih hinner hp.enterSpeculation).eq_none_or_eq_some with
      ⟨hx, hy⟩ | ⟨a, g, q, t, hx, hy, hq⟩ <;> rw [hx, hy]
    · exact .none
    · simp only [(extends_perform hextends r hx).exitSpeculation.restore_save]
      exact .some hp
  | attempt r ih =>
    simp only [Reader.perform, Reader.run]
    have hinner : { context with speculative := true }.size = rounds := hsize
    rcases (ih hinner hp.enterSpeculation).eq_none_or_eq_some with
      ⟨hx, hy⟩ | ⟨a, g, q, t, hx, hy, hq⟩ <;> rw [hx, hy]
    · exact .none
    · have hq' := extends_perform hextends r hx
      simp only [Parser.save, hp.errors_length, hq.errors_length]
      split
      · exact .some (hp.exitSpeculation hq' hq)
      · have hback := hq'.exitSpeculation.restore_save
        simp only [Parser.save] at hback
        rw [hp.errors_length] at hback
        rw [hback]
        exact .some hp
  | within change r ih =>
    simp only [Reader.perform, Reader.run]
    have hinner : { context with mode := change context.mode }.size = rounds := hsize
    rcases (ih hinner (hp.withMode change)).eq_none_or_eq_some with
      ⟨hx, hy⟩ | ⟨a, g, q, t, hx, hy, hq⟩ <;> rw [hx, hy]
    · exact .none
    · exact .some { hq with mode := hp.mode }
  | nested beyond inner ihb ihi =>
    simp only [Reader.perform, Reader.run, hp.recursionDepth]
    split
    · exact ihb hsize (hp.report .nestingTooDeep)
    · have hinner : { context with depth := context.depth + 1 }.size = rounds := hsize
      rcases (ihi hinner hp.enterRecursion).eq_none_or_eq_some with
        ⟨hx, hy⟩ | ⟨a, g, q, t, hx, hy, hq⟩ <;> rw [hx, hy]
      · exact .none
      · have hq' := (extends_perform hextends inner hx).exitRecursion
        exact .some { hq with recursionDepth := hq'.recursionDepth.trans hp.recursionDepth }
  | loop step ih => exact hsize ▸ alike_repeatStep (fun hp => ih hsize hp) _ hp
  | call construct => exact hrules construct hsize hp

theorem alike_performWithin (levels : ℕ) (construct : Construct) (hsize : context.size = rounds)
    (hp : p.Matches context s frame) :
    Alike context (performWithin rounds levels construct frame p)
      (rulesWithin levels construct context s) := by
  induction levels generalizing construct context s frame p with
  | zero => exact .none
  | succ levels ih =>
    exact alike_perform (extends_performWithin rounds levels)
      (fun construct {_ _ _ _} hsize hp => ih construct hsize hp) (produce construct) hsize hp

/-! ### Whole texts -/

/-- The context in which a whole text is read, in rounds of a given number. -/
def Context.whole (rounds : ℕ) (dialect : Dialect) : Context :=
  { size := rounds, mode := { markup := dialect = .markup } }

theorem matches_ofText (rounds : ℕ) (dialect : Dialect) (text : List Char) :
    (Parser.ofText dialect text).Matches (.whole rounds dialect)
      { scanner := Scanner.ofText text } {} where
  scanner := rfl
  token := rfl
  lastStop := rfl
  tokens := rfl
  errors := rfl
  mode := rfl
  recursionDepth := rfl
  speculative := rfl
  start := rfl
  pieces := Arena.holdsAll_nil

/-- The parser reads a whole text as the readers say. -/
theorem alike_wholeText (rounds levels : ℕ) (dialect : Dialect) (text : List Char) :
    Alike (.whole rounds dialect)
      (wholeText.perform (performWithin rounds levels) rounds {} (Parser.ofText dialect text))
      (wholeText.run (rulesWithin levels) (.whole rounds dialect)
        { scanner := Scanner.ofText text }) :=
  alike_perform (extends_performWithin rounds levels)
    (fun construct {_ _ _ _} hsize hp => alike_performWithin levels construct hsize hp) wholeText
    rfl (matches_ofText rounds dialect text)

/-- A text that has been read, taken apart. -/
theorem parseWithin_eq_some {levels : ℕ} {dialect : Dialect} {text : List Char} {parsed : Parsed} :
    parseWithin rounds levels dialect text = some parsed ↔
      ∃ frame p arena,
        wholeText.perform (performWithin rounds levels) rounds {} (Parser.ofText dialect text) =
          some ((), frame, p) ∧
        (p.addNode .sourceFile 0 (Text.byteLength text) frame.pieces).2.arena.linkParents?
          p.arena.length = some arena ∧
        parsed = { text, arena, root := p.arena.length, tokens := p.tokens, errors := p.errors } := by
  unfold parseWithin
  cases wholeText.perform (performWithin rounds levels) rounds {} (Parser.ofText dialect text) with
  | none => simp
  | some result =>
    obtain ⟨⟨⟩, frame, p⟩ := result
    simp only [Option.bind_eq_bind, Option.bind_some, Option.bind_eq_some_iff, Option.some.injEq,
      Prod.mk.injEq, Option.pure_def]
    constructor
    · rintro ⟨arena, harena, rfl⟩
      exact ⟨frame, p, arena, ⟨trivial, rfl, rfl⟩, harena, rfl⟩
    · rintro ⟨_, _, arena, ⟨-, rfl, rfl⟩, harena, rfl⟩
      exact ⟨arena, harena, rfl⟩

end Grammar

end ExpectError
