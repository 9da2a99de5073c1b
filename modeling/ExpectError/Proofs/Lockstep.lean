import ExpectError.Proofs.Reading
import ExpectError.SourceFile

/-!
# Reading two texts in step

If no word of the language can tell two states apart, and every word takes such states to such
states again, then whole runs cannot tell them apart either: where one ends, the other ends with the
same answer. Some texts are told apart by a few tokens only, so runs are guarded: a run under a guard
has no answer if it does something with a token that the guard refuses.

* `Reader.guarded`, `SourceFile.readUnder?`: reading under a guard;
* `Lockstep`: what the words of the language do to a relation between states;
* `Lockstep.run`, `Lockstep.readUnder?`: what whole runs do to it;
* `invariant_of_readUnder?`: what a run keeps if every move keeps it;
* `SourceFile.read?_of_readUnder?`: what is read under a guard is what is read.
-/

namespace ExpectError

namespace Grammar

/-- What can be done with a token: ask about it, move on to the next one, or read it anew; and what can
be done in front of it: make a node of the pieces, or begin to read a construct. -/
inductive Move : Type 1 where
  | ask {α : Type} (question : Question α)
  | scan (scan : Scan)
  | rescan (scan : Rescan)
  | wrap (kind : NodeKind)
  | call (construct : Construct)

/-- Says what may be done at the token at hand. -/
abbrev Guard := Move → Scanner → Bool

/-- A run that has no answer if the guard refuses something on the way, be it in looking ahead or in
trying. -/
def Reader.guarded (guard : Guard) (rules : Rules) : {α : Type} → Reader α → Action α
  | _, ask question => fun context s =>
    if guard (.ask question) s.scanner then (ask question).run rules context s else none
  | _, advance scan => fun context s =>
    if guard (.scan scan) s.scanner then (advance scan).run rules context s else none
  | _, leaf kind scan => fun context s =>
    if guard (.scan scan) s.scanner then (leaf kind scan).run rules context s else none
  | _, rescan scan => fun context s =>
    if guard (.rescan scan) s.scanner then (rescan scan).run rules context s else none
  | _, wrap kind => fun context s =>
    if guard (.wrap kind) s.scanner then (wrap kind).run rules context s else none
  | _, call construct => fun context s =>
    if guard (.call construct) s.scanner then rules construct context s else none
  | _, pure a => (pure a).run rules
  | _, mode => mode.run rules
  | _, report problem => (report problem).run rules
  | _, emptyName => emptyName.run rules
  | _, hasPieces => hasPieces.run rules
  | _, dropPieces => dropPieces.run rules
  | _, bind r f => fun context s => do
    let (a, t) ← r.guarded guard rules context s
    (f a).guarded guard rules context t
  | _, scope r => fun context s => do
    let (a, t) ← r.guarded guard rules context s.openScope
    return (a, t.closeScope s)
  | _, moves r => fun context s => do
    let (_, t) ← r.guarded guard rules context s
    return (decide (t.position ≠ s.position), t)
  | _, withoutError r => fun context s => do
    let (_, t) ← r.guarded guard rules context s
    return (decide (t.errors.length = s.errors.length), t)
  | _, lookAhead r => fun context s => do
    let (a, _) ← r.guarded guard rules { context with speculative := true } s
    return (a, s)
  | _, attempt r => fun context s => do
    let (yes, t) ← r.guarded guard rules { context with speculative := true } s
    if yes && t.errors.length = s.errors.length then some (true, t) else some (false, s)
  | _, within change r => fun context s =>
    r.guarded guard rules { context with mode := change context.mode } s
  | _, nested beyond inner => fun context s =>
    if maxDepth ≤ context.depth then
      beyond.guarded guard rules context (s.report context.speculative .nestingTooDeep)
    else inner.guarded guard rules { context with depth := context.depth + 1 } s
  | _, loop step => fun context s =>
    iterate (step.guarded guard rules) (context.size + 2) context s

/-- The rules for constructs at most `n` deep, under a guard. -/
def guardedWithin (guard : Guard) : ℕ → Rules
  | 0, _ => fun _ _ => none
  | n + 1, construct => (produce construct).guarded guard (guardedWithin guard n)

/-- A guard that refuses nothing. -/
def unguarded : Guard :=
  fun _ _ => true

theorem Reader.guarded_unguarded {α : Type} (rules : Rules) (r : Reader α) :
    r.guarded unguarded rules = r.run rules := by
  induction r with
  | bind r f ihr ihf =>
    funext context s
    simp only [guarded, Reader.run, ihr, ihf]
    cases r.run rules context s <;> rfl
  | scope r ih =>
    funext context s
    simp only [guarded, Reader.run, ih]
    cases r.run rules context s.openScope <;> rfl
  | moves r ih | withoutError r ih =>
    funext context s
    simp only [guarded, Reader.run, ih]
    cases r.run rules context s <;> rfl
  | lookAhead r ih | attempt r ih =>
    funext context s
    simp only [guarded, Reader.run, ih]
    cases r.run rules { context with speculative := true } s <;> rfl
  | within change r ih | loop step ih =>
    funext context s
    simp only [guarded, Reader.run, ih]
  | nested beyond inner ihb ihi =>
    funext context s
    simp only [guarded, Reader.run, ihb, ihi]
  | _ => rfl

theorem guardedWithin_unguarded (n : ℕ) : guardedWithin unguarded n = rulesWithin n := by
  induction n with
  | zero => rfl
  | succ n ih =>
    funext construct
    rw [guardedWithin, rulesWithin, ih, Reader.guarded_unguarded]

/-- No word of the language tells two related states apart, and each takes related states to related
states, as far as a guard allows it in the first one. What it allows there, another guard allows in
the second one. -/
structure Lockstep (guard guard' : Guard) (rel : State → State → Prop) : Prop where
  allows {s t : State} : rel s t → ∀ move, guard move s.scanner = true →
    guard' move t.scanner = true
  answer {s t : State} : rel s t → ∀ {α : Type} (question : Question α),
    guard (.ask question) s.scanner = true →
      question.answer s.scanner = question.answer t.scanner
  position {s t u v : State} : rel s t → rel u v →
    (s.position = u.position ↔ t.position = v.position)
  errors {s t : State} : rel s t → s.errors.length = t.errors.length
  pieces {s t : State} : rel s t → s.pieces.isEmpty = t.pieces.isEmpty
  advance {s t : State} : rel s t → ∀ scan, guard (.scan scan) s.scanner = true →
    rel (s.advance scan) (t.advance scan)
  rescan {s t : State} : rel s t → ∀ scan, guard (.rescan scan) s.scanner = true →
    rel (s.rescan scan) (t.rescan scan)
  report {s t : State} : rel s t → ∀ speculative problem,
    rel (s.report speculative problem) (t.report speculative problem)
  leaf {s t : State} : rel s t → ∀ kind,
    rel (s.addPiece (s.leafHere kind)) (t.addPiece (t.leafHere kind))
  emptyName {s t : State} : rel s t →
    rel (s.addPiece (.leaf (.token .identifier) s.position s.position))
      (t.addPiece (.leaf (.token .identifier) t.position t.position))
  wrap {s t : State} : rel s t → ∀ kind, guard (.wrap kind) s.scanner = true →
    rel (s.wrap kind) (t.wrap kind)
  dropPieces {s t : State} : rel s t → rel { s with pieces := [] } { t with pieces := [] }
  openScope {s t : State} : rel s t → rel s.openScope t.openScope
  closeScope {s t u v : State} : rel s t → rel u v → rel (s.closeScope u) (t.closeScope v)

/-- Where one run ends, the other ends with the same answer, and the two states have the relation that
goes with the answer. -/
def Follows {α : Type} (post : α → State → State → Prop) (x y : Option (α × State)) : Prop :=
  ∀ ⦃a s⦄, x = some (a, s) → ∃ t, y = some (a, t) ∧ post a s t

variable {α β : Type} {guard guard' : Guard} {rel : State → State → Prop} {m n own size : ℕ}
  {context : Context} {s t : State} {rules rules' : Rules} {post post' : α → State → State → Prop}

namespace Follows

theorem of_post {a : α} (h : post a s t) : Follows post (some (a, s)) (some (a, t)) := by
  intro b u hu
  cases hu
  exact ⟨t, rfl, h⟩

theorem of_none (y : Option (α × State)) : Follows post none y := by
  intro a s hs
  cases hs

theorem mono {x y : Option (α × State)} (h : Follows post x y)
    (hpost : ∀ a s t, post a s t → post' a s t) : Follows post' x y := by
  intro a s hs
  obtain ⟨t, ht, hst⟩ := h hs
  exact ⟨t, ht, hpost a s t hst⟩

/-- What is done next with the answers. -/
theorem next {x y : Option (α × State)} (h : Follows post x y)
    {f g : α × State → Option (β × State)} {last : β → State → State → Prop}
    (hnext : ∀ a s t, post a s t → Follows last (f (a, s)) (g (a, t))) :
    Follows last (x.bind f) (y.bind g) := by
  intro b u hu
  obtain ⟨⟨a, s⟩, hs, hf⟩ := Option.bind_eq_some_iff.1 hu
  obtain ⟨t, rfl, hst⟩ := h hs
  exact hnext a s t hst hf

end Follows

namespace Lockstep

theorem follows_iterate {step step' : Action (Option α)}
    (h : ∀ s t, rel s t → Follows (fun _ => rel) (step context s) (step' { context with size } t))
    {k l : ℕ} (hkl : k ≤ l) (hst : rel s t) :
    Follows (fun _ => rel) (iterate step k context s) (iterate step' l { context with size } t) := by
  induction k generalizing l s t with
  | zero => exact .of_none _
  | succ k ih =>
    obtain ⟨l, rfl⟩ := Nat.exists_eq_add_of_le' hkl
    intro a u hu
    simp only [iterate] at hu ⊢
    cases hs : step context s with
    | none => simp [hs] at hu
    | some result =>
      obtain ⟨answer, s'⟩ := result
      obtain ⟨t', ht, hst'⟩ := h s t hst hs
      rw [hs] at hu
      simp only [ht]
      cases answer with
      | some b =>
        cases hu
        exact ⟨t', rfl, hst'⟩
      | none => exact ih (Nat.le_add_left k l) hst' hu

theorem follows_move (hrel : Lockstep guard guard' rel) (hst : rel s t) {move : Move}
    {x y : Option (α × State)} (h : guard move s.scanner = true → Follows post x y) :
    Follows post (if guard move s.scanner then x else none)
      (if guard' move t.scanner then y else none) := by
  split
  next hmove =>
    rw [if_pos (hrel.allows hst move hmove)]
    exact h hmove
  next => exact .of_none _

/-- Runs of a reader, if what is said of them holds for the recursive constructs. -/
theorem follows_guarded (hrel : Lockstep guard guard' rel)
    (hcall : ∀ construct context, context.size = own → ∀ s t, rel s t →
      guard (.call construct) s.scanner = true →
      Follows (fun _ => rel) (rules construct context s) (rules' construct { context with size } t))
    (r : Reader α) (context : Context) (hown : context.size = own) (hsize : own ≤ size)
    {s t : State} (hst : rel s t) :
    Follows (fun _ => rel) (r.guarded guard rules context s)
      (r.guarded guard' rules' { context with size } t) := by
  induction r generalizing context s t with
  | pure a => exact .of_post hst
  | mode => exact .of_post hst
  | report problem => exact .of_post (hrel.report hst _ _)
  | emptyName => exact .of_post (hrel.emptyName hst)
  | dropPieces => exact .of_post (hrel.dropPieces hst)
  | hasPieces =>
    simp only [Reader.guarded, Reader.run, hrel.pieces hst]
    exact .of_post hst
  -- words that look at the token are compared only where the guard lets the first run go on
  | ask question =>
    refine hrel.follows_move hst fun hmove => ?_
    simp only [Reader.run, hrel.answer hst question hmove]
    exact .of_post hst
  | advance scan =>
    exact hrel.follows_move hst fun hmove => .of_post (hrel.advance hst scan hmove)
  | rescan scan => exact hrel.follows_move hst fun hmove => .of_post (hrel.rescan hst scan hmove)
  | wrap kind => exact hrel.follows_move hst fun hmove => .of_post (hrel.wrap hst kind hmove)
  | leaf kind scan =>
    exact hrel.follows_move hst fun hmove =>
      .of_post (hrel.advance (hrel.leaf hst kind) scan hmove)
  | bind r f ihr ihf =>
    exact (ihr context hown hst).next fun a s t hst => ihf a context hown hst
  | scope r ih =>
    exact (ih context hown (hrel.openScope hst)).next fun a s' t' hst' =>
      .of_post (hrel.closeScope hst' hst)
  | moves r ih =>
    refine (ih context hown hst).next fun a s' t' hst' => ?_
    simp only [ne_eq, hrel.position hst' hst]
    exact .of_post hst'
  | withoutError r ih =>
    refine (ih context hown hst).next fun a s' t' hst' => ?_
    simp only [hrel.errors hst', hrel.errors hst]
    exact .of_post hst'
  -- what is taken back needs no relation: both runs go on from the states before it
  | lookAhead r ih =>
    exact (ih { context with speculative := true } hown hst).next fun a s' t' hst' => .of_post hst
  | attempt r ih =>
    refine (ih { context with speculative := true } hown hst).next fun yes s' t' hst' => ?_
    simp only [hrel.errors hst', hrel.errors hst]
    split
    · exact .of_post hst'
    · exact .of_post hst
  | within change r ih => exact ih { context with mode := change context.mode } hown hst
  | nested beyond inner ihb ihi =>
    simp only [Reader.guarded]
    split
    · exact ihb _ hown (hrel.report hst _ _)
    · exact ihi { context with depth := context.depth + 1 } hown hst
  | loop step ih =>
    exact follows_iterate (fun _ _ hst => ih context hown hst)
      (Nat.add_le_add_right (hown.le.trans hsize) 2) hst
  | call construct =>
    exact hrel.follows_move hst fun hmove => hcall construct context hown s t hst hmove

theorem follows_guardedWithin (hrel : Lockstep guard guard' rel) (hnm : n ≤ m)
    (construct : Construct) (context : Context) (hsize : context.size ≤ size) (hst : rel s t) :
    Follows (fun _ => rel) (guardedWithin guard n construct context s)
      (guardedWithin guard' m construct { context with size } t) := by
  induction n generalizing m construct context s t with
  | zero => exact .of_none _
  | succ n ih =>
    obtain ⟨m, rfl⟩ := Nat.exists_eq_add_of_le' hnm
    exact hrel.follows_guarded (fun construct context' hown _ _ hst _ =>
      ih (Nat.le_add_left n m) construct context' (hown.le.trans hsize) hst) (produce construct)
      context rfl hsize hst

/-- Where a run from one of two related states ends, the run from the other ends too, with the same
answer and in a related state. It may be given more steps. -/
theorem run (hrel : Lockstep guard guard' rel) (r : Reader α) (hnm : n ≤ m)
    (hsize : context.size ≤ size) (hst : rel s t) :
    Follows (fun _ => rel) (r.guarded guard (guardedWithin guard n) context s)
      (r.guarded guard' (guardedWithin guard' m) { context with size } t) :=
  hrel.follows_guarded (fun construct context' hown _ _ hst _ =>
    hrel.follows_guardedWithin hnm construct context' (hown.le.trans hsize) hst) r context rfl hsize
    hst

end Lockstep

theorem State.scanner_report (speculative : Bool) (problem : SyntaxProblem) (s : State) :
    (s.report speculative problem).scanner = s.scanner ∧
      (s.report speculative problem).tokens = s.tokens := by
  unfold State.report
  split <;> exact ⟨rfl, rfl⟩

/-- A run under a guard is in step with the run itself, and what the token at hand and the consumed
tokens keep with every move, they keep along the run. -/
theorem lockstep_invariant {p : Scanner → List Token → Prop}
    (hadvance : ∀ (s : State) (scan : Scan), p s.scanner s.tokens →
      p (s.advance scan).scanner (s.advance scan).tokens)
    (hrescan : ∀ (s : State) (scan : Rescan), p s.scanner s.tokens →
      p (s.rescan scan).scanner (s.rescan scan).tokens) (guard : Guard) :
    Lockstep guard unguarded fun s t => s = t ∧ p s.scanner s.tokens where
  allows _ _ _ := rfl
  answer := by rintro s _ ⟨rfl, -⟩ α question -; rfl
  position := by rintro s _ u _ ⟨rfl, -⟩ ⟨rfl, -⟩; rfl
  errors := by rintro s _ ⟨rfl, -⟩; rfl
  pieces := by rintro s _ ⟨rfl, -⟩; rfl
  advance := by rintro s _ ⟨rfl, h⟩ scan -; exact ⟨rfl, hadvance s scan h⟩
  rescan := by rintro s _ ⟨rfl, h⟩ scan -; exact ⟨rfl, hrescan s scan h⟩
  report := by
    rintro s _ ⟨rfl, h⟩ speculative problem
    obtain ⟨hscanner, htokens⟩ := State.scanner_report speculative problem s
    exact ⟨rfl, by rwa [hscanner, htokens]⟩
  leaf := by rintro s _ ⟨rfl, h⟩ kind; exact ⟨rfl, h⟩
  emptyName := by rintro s _ ⟨rfl, h⟩; exact ⟨rfl, h⟩
  wrap := by rintro s _ ⟨rfl, h⟩ kind -; exact ⟨rfl, h⟩
  dropPieces := by rintro s _ ⟨rfl, h⟩; exact ⟨rfl, h⟩
  openScope := by rintro s _ ⟨rfl, h⟩; exact ⟨rfl, h⟩
  closeScope := by rintro s _ u _ ⟨rfl, h⟩ ⟨rfl, -⟩; exact ⟨rfl, h⟩

/-- What every move keeps, runs of the grammar keep. -/
theorem invariant_run {p : Scanner → List Token → Prop}
    (hadvance : ∀ (s : State) (scan : Scan), p s.scanner s.tokens →
      p (s.advance scan).scanner (s.advance scan).tokens)
    (hrescan : ∀ (s : State) (scan : Rescan), p s.scanner s.tokens →
      p (s.rescan scan).scanner (s.rescan scan).tokens)
    {r : Reader α} {n : ℕ} {a : α} (hs : p s.scanner s.tokens)
    (hrun : r.run (rulesWithin n) context s = some (a, t)) : p t.scanner t.tokens := by
  rw [← guardedWithin_unguarded, ← Reader.guarded_unguarded] at hrun
  obtain ⟨_, -, rfl, h⟩ := (lockstep_invariant hadvance hrescan unguarded).run r (le_refl n)
    (le_refl context.size) ⟨rfl, hs⟩ hrun
  exact h

/-! ### Whole texts -/

/-- The state in which reading a text under a guard comes to an end. -/
def readUnder? (guard : Guard) (dialect : Dialect) (text : List Char) : Option State := do
  let size := Text.byteLength text
  let (_, s) ← wholeText.guarded guard (guardedWithin guard (depthBound size))
    { size, mode := { markup := dialect = .markup } } { scanner := Scanner.ofText text }
  return s

/-- Texts whose first tokens are related are read in step. -/
theorem Lockstep.readUnder? (hrel : Lockstep guard guard' rel) {dialect : Dialect}
    {text text' : List Char} (hsize : Text.byteLength text ≤ Text.byteLength text')
    (hfirst : guard (.scan .code) (Scanner.ofText text) = true →
      guard' (.scan .code) (Scanner.ofText text') = true ∧
      rel (State.advance .code { scanner := Scanner.ofText text })
        (State.advance .code { scanner := Scanner.ofText text' }))
    (hread : Grammar.readUnder? guard dialect text = some s) :
    ∃ t, Grammar.readUnder? guard' dialect text' = some t ∧ rel s t := by
  obtain ⟨⟨_, s'⟩, hrun, hs⟩ := Option.bind_eq_some_iff.1 hread
  cases hs
  -- the first token is read before anything else
  obtain ⟨⟨_, first⟩, hadvance, hrest⟩ := Option.bind_eq_some_iff.1 hrun
  obtain ⟨hmove, hadvance⟩ := Option.ite_none_right_eq_some.1 hadvance
  cases hadvance
  obtain ⟨hmove', hst⟩ := hfirst hmove
  have hbound : depthBound (Text.byteLength text) ≤ depthBound (Text.byteLength text') := by
    unfold depthBound
    omega
  obtain ⟨t, ht, hst⟩ := hrel.run _ hbound hsize hst hrest
  refine ⟨t, Option.bind_eq_some_iff.2 ⟨((), t), ?_, rfl⟩, hst⟩
  exact Option.bind_eq_some_iff.2
    ⟨((), State.advance .code { scanner := Scanner.ofText text' }), if_pos hmove', ht⟩

/-- What holds at the first token and is kept with every move holds at the end of a text. -/
theorem invariant_of_readUnder? {p : Scanner → List Token → Prop}
    (hadvance : ∀ (s : State) (scan : Scan), p s.scanner s.tokens →
      p (s.advance scan).scanner (s.advance scan).tokens)
    (hrescan : ∀ (s : State) (scan : Rescan), p s.scanner s.tokens →
      p (s.rescan scan).scanner (s.rescan scan).tokens)
    {dialect : Dialect} {text : List Char} (hfirst : p (Scanner.ofText text).next [])
    (hread : readUnder? guard dialect text = some s) :
    readUnder? unguarded dialect text = some s ∧ p s.scanner s.tokens := by
  obtain ⟨_, ht, rfl, h⟩ := (lockstep_invariant hadvance hrescan guard).readUnder? le_rfl
    (fun _ => ⟨rfl, rfl, hfirst⟩) hread
  exact ⟨ht, h⟩

end Grammar

namespace SourceFile

open Grammar

/-- What is read under a guard is what is read. -/
theorem read?_of_readUnder? {guard : Guard} {dialect : Dialect} {text : List Char} {s : State}
    (h : readUnder? guard dialect text = some s) :
    read? dialect text = some
      { text
        tree := .node .sourceFile 0 (Text.byteLength text) s.pieces.reverse
        tokens := s.tokens.reverse
        errors := s.errors.reverse } := by
  obtain ⟨ht, -⟩ := invariant_of_readUnder? (p := fun _ _ => True) (fun _ _ => id) (fun _ _ => id)
    trivial h
  obtain ⟨⟨_, s'⟩, hrun, hs⟩ := Option.bind_eq_some_iff.1 ht
  cases hs
  rw [Reader.guarded_unguarded, guardedWithin_unguarded] at hrun
  exact Option.bind_eq_some_iff.2 ⟨_, hrun, rfl⟩

end SourceFile

end ExpectError
