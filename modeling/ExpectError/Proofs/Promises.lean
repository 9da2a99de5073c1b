import ExpectError.Proofs.Behind

/-!
# What readers promise

Each class below is a promise that a reader can give about its runs without errors. The instances say
how the promises of a reader follow from those of its parts, one instance for each word of the
language and each way to combine words, so that the promises of longer readers are found by
resolution.

* `Goes`, `Eats`, `EatsHere`: a reader leads to a good state, and it consumes a token, the latter
  only if there is one;
* `GoesOn`, `Finishes`, `FinishesHere`: the same for readers that may make a node of all pieces of
  the construct;
* `Asks`, `AsksToken`, `Accepts`: what the answer of a reader tells.
-/

open ExpectError.Tree (isMarkup isMarkupNode isTag)

namespace ExpectError.Grammar

variable {α β : Type} {r : Reader α} {f : α → Reader β} {q q' : Reader Bool} {x y : Reader α}

/-! ### What readers promise -/

/-- Elements and fragments are read only where a token has been seen. -/
@[reducible] def Construct.needsToken : Construct → Bool
  | .markup _ => true
  | _ => false

/-- In a run without errors from a good state, rules for the recursive constructs consume a token and
leave pieces that are laid out well; those for markup leave one element or fragment. -/
structure Rules.Sound (text : List Char) (rules : Rules) : Prop where
  grows : ∀ construct, Grows (rules construct)
  behind : ∀ construct, AddsBehind (rules construct)
  adds : ∀ construct, Adds (rules construct)
  leads : ∀ ⦃construct context s t⦄, s.Good text → (construct.needsToken = true → s.AtToken) →
    rules construct context s = some ((), t) → t.errors = [] → s.Leads text t ∧ s.Eaten t
  markup : ∀ ⦃amongChildren context s t⦄, s.Good text → s.AtToken →
    rules (.markup amongChildren) context s = some ((), t) → t.errors = [] →
      ∃ piece, t.pieces = piece :: s.pieces ∧ Placement.isElement piece.kind = true

/-- From a good state with some property, a reader that notes no error gets to a good state, and its
answer and that state have some relation to the first one. -/
def Reads (need : State → Prop) (r : Reader α) (gain : State → α → State → Prop) : Prop :=
  ∀ ⦃text rules⦄, Rules.Sound text rules → ∀ ⦃context s a t⦄, s.Good text → need s →
    r.run rules context s = some (a, t) → t.errors = [] → s.Leads text t ∧ gain s a t

/-- One reader after the other. -/
theorem Reads.bind {need : State → Prop} {r : Reader α} {gain : State → α → State → Prop}
    {f : α → Reader β} {need' : α → State → Prop} {gain' : α → State → β → State → Prop}
    {total : State → β → State → Prop} (hr : Reads need r gain)
    (hf : ∀ a, Reads (need' a) (f a) (gain' a))
    (hneed : ∀ ⦃text s a t⦄, s.Good text → need s → s.Leads text t → gain s a t → need' a t)
    (htotal : ∀ ⦃text s a t b u⦄, s.Leads text t → gain s a t → t.Leads text u →
      gain' a t b u → total s b u) :
    Reads need (r >>= f) total := by
  intro text rules hrules context s b u hs hn hrun hu
  obtain ⟨a, t, hr', hf'⟩ := run_bind_eq_some.1 hrun
  have ht := errors_eq_nil_of_suffix (grows_run hrules.grows (f a) hf') hu
  obtain ⟨hst, hgain⟩ := hr hrules hs hn hr' ht
  obtain ⟨htu, hgain'⟩ := hf a hrules hst.good (hneed hs hn hst hgain) hf' hu
  exact ⟨hst.trans htu, htotal hst hgain htu hgain'⟩

theorem Reads.mono {need need' : State → Prop} {r : Reader α}
    {gain gain' : State → α → State → Prop} (h : Reads need r gain)
    (hneed : ∀ s, need' s → need s) (hgain : ∀ s a t, gain s a t → gain' s a t) :
    Reads need' r gain' := by
  intro text rules hrules context s a t hs hn hrun ht
  obtain ⟨hst, hg⟩ := h hrules hs (hneed s hn) hrun ht
  exact ⟨hst, hgain s a t hg⟩

/-- The reader leads to a good state. -/
class Goes (r : Reader α) : Prop where
  reads : Reads (fun _ => True) r fun _ _ _ => True

/-- The reader consumes the token at hand. -/
class Eats (r : Reader α) : Prop where
  reads : Reads (fun _ => True) r fun s _ t => s.Eaten t

/-- The reader consumes the token at hand unless it is the end of the file. -/
class EatsHere (r : Reader α) : Prop where
  reads : Reads State.AtToken r fun s _ t => s.Eaten t

/-- In a construct that has begun and has no tags among its pieces, the reader leads to a good
state. -/
class GoesOn (r : Reader α) : Prop where
  reads : Reads (fun s => s.Untagged ∧ s.Begun) r fun _ _ _ => True

/-- In a construct without tags among its pieces, the reader consumes the token at hand. -/
class Finishes (r : Reader α) : Prop where
  reads : Reads State.Untagged r fun s _ t => s.Eaten t

/-- In a construct without tags among its pieces, the reader consumes the token at hand unless it is
the end of the file. -/
class FinishesHere (r : Reader α) : Prop where
  reads : Reads (fun s => s.Untagged ∧ s.AtToken) r fun s _ t => s.Eaten t

/-- The reader changes nothing. -/
class Asks (r : Reader α) : Prop where
  eq : ∀ {rules : Rules} {context : Context} {s : State} {a : α} {t : State},
    r.run rules context s = some (a, t) → t = s

/-- The reader changes nothing, and says no at the end of the file. -/
class AsksToken (r : Reader Bool) : Prop where
  asks : Asks r
  atToken : ∀ {rules : Rules} {context : Context} {s t : State},
    r.run rules context s = some (true, t) → s.AtToken

/-- The reader leads to a good state, and if it says yes it has consumed the token at hand. -/
class Accepts (r : Reader Bool) : Prop where
  reads : Reads (fun _ => True) r fun s yes t => yes = true → s.Eaten t

/-! ### From one promise to another -/

instance (priority := low) goes_of_asks [Asks r] : Goes r where
  reads := by
    intro text rules hrules context s a t hs _ hrun _
    rw [Asks.eq hrun]
    exact ⟨hs.leads, trivial⟩

instance (priority := low) asks_of_asksToken [AsksToken q] : Asks q :=
  AsksToken.asks

instance (priority := low) goes_of_accepts [h : Accepts q] : Goes q :=
  ⟨h.reads.mono (fun _ => id) fun _ _ _ _ => trivial⟩

instance (priority := low) goes_of_eats [h : Eats r] : Goes r :=
  ⟨h.reads.mono (fun _ => id) fun _ _ _ _ => trivial⟩

instance (priority := low) eatsHere_of_eats [h : Eats r] : EatsHere r :=
  ⟨h.reads.mono (fun _ _ => trivial) fun _ _ _ => id⟩

instance (priority := low) finishes_of_eats [h : Eats r] : Finishes r :=
  ⟨h.reads.mono (fun _ _ => trivial) fun _ _ _ => id⟩

instance (priority := low) finishesHere_of_eatsHere [h : EatsHere r] : FinishesHere r :=
  ⟨h.reads.mono (fun _ => And.right) fun _ _ _ => id⟩

instance (priority := low) finishesHere_of_finishes [h : Finishes r] : FinishesHere r :=
  ⟨h.reads.mono (fun _ => And.left) fun _ _ _ => id⟩

instance (priority := low) goesOn_of_goes [h : Goes r] : GoesOn r :=
  ⟨h.reads.mono (fun _ _ => trivial) fun _ _ _ => id⟩

instance (priority := low) goesOn_of_finishes [h : Finishes r] : GoesOn r :=
  ⟨h.reads.mono (fun _ => And.left) fun _ _ _ _ => trivial⟩

/-! ### One reader after the other -/

instance goes_bind [hr : Goes r] [hf : ∀ a, Goes (f a)] : Goes (r >>= f) :=
  ⟨hr.reads.bind (fun a => (hf a).reads) (fun _ _ _ _ _ _ _ _ => trivial)
    fun _ _ _ _ _ _ _ _ _ _ => trivial⟩

instance eats_bind_left [hr : Eats r] [hf : ∀ a, Goes (f a)] : Eats (r >>= f) :=
  ⟨hr.reads.bind (fun a => (hf a).reads) (fun _ _ _ _ _ _ _ _ => trivial)
    fun _ _ _ _ _ _ _ h htu _ => h.of_reaches htu.toReaches⟩

instance eats_bind_right [hr : Goes r] [hf : ∀ a, Eats (f a)] : Eats (r >>= f) :=
  ⟨hr.reads.bind (fun a => (hf a).reads) (fun _ _ _ _ _ _ _ _ => trivial)
    fun _ _ _ _ _ _ hst _ _ h => hst.eaten h⟩

instance eatsHere_bind_left [hr : EatsHere r] [hf : ∀ a, Goes (f a)] : EatsHere (r >>= f) :=
  ⟨hr.reads.bind (fun a => (hf a).reads) (fun _ _ _ _ _ _ _ _ => trivial)
    fun _ _ _ _ _ _ _ h htu _ => h.of_reaches htu.toReaches⟩

instance goesOn_bind [hr : GoesOn r] [hf : ∀ a, GoesOn (f a)] : GoesOn (r >>= f) :=
  ⟨hr.reads.bind (fun a => (hf a).reads)
    (fun _ _ _ _ _ hn hst _ => ⟨hst.untagged hn.1, hn.2.of_reaches hst.toReaches⟩)
    fun _ _ _ _ _ _ _ _ _ _ => trivial⟩

instance finishes_bind_left [hr : Finishes r] [hf : ∀ a, GoesOn (f a)] : Finishes (r >>= f) :=
  ⟨hr.reads.bind (fun a => (hf a).reads)
    (fun _ _ _ _ hs hn hst h => ⟨hst.untagged hn, h.begun hs hst.toReaches⟩)
    fun _ _ _ _ _ _ _ h htu _ => h.of_reaches htu.toReaches⟩

instance finishes_bind_right [hr : Goes r] [hf : ∀ a, Finishes (f a)] : Finishes (r >>= f) :=
  ⟨Reads.bind (hr.reads.mono (fun _ (_ : State.Untagged _) => trivial) fun _ _ _ => id)
    (fun a => (hf a).reads) (fun _ _ _ _ _ hn hst _ => hst.untagged hn)
    fun _ _ _ _ _ _ hst _ _ h => hst.eaten h⟩

instance finishesHere_bind_left [hr : FinishesHere r] [hf : ∀ a, GoesOn (f a)] :
    FinishesHere (r >>= f) :=
  ⟨hr.reads.bind (fun a => (hf a).reads)
    (fun _ _ _ _ hs hn hst h => ⟨hst.untagged hn.1, h.begun hs hst.toReaches⟩)
    fun _ _ _ _ _ _ _ h htu _ => h.of_reaches htu.toReaches⟩

/-- Readers that keep the token at hand: those that ask, and those that read it anew. -/
class KeepsToken (r : Reader α) : Prop where
  reads : Reads State.AtToken r fun _ _ t => t.AtToken

instance keepsToken_of_asks [Asks r] : KeepsToken r where
  reads := by
    intro text rules hrules context s a t hs hn hrun _
    rw [Asks.eq hrun]
    exact ⟨hs.leads, hn⟩

instance keepsToken_rescan (scan : Rescan) : KeepsToken (.rescan scan) where
  reads := by
    intro text rules hrules context s a t hs hn hrun _
    cases hrun
    exact ⟨hs.leads_rescan scan, ((State.sameStart_rescan scan hs.scanner).lt hn).1⟩

instance eatsHere_bind_right [hr : KeepsToken r] [hf : ∀ a, EatsHere (f a)] : EatsHere (r >>= f) :=
  ⟨hr.reads.bind (fun a => (hf a).reads) (fun _ _ _ _ _ _ _ h => h)
    fun _ _ _ _ _ _ hst _ _ h => hst.eaten h⟩

instance finishesHere_bind_right [hr : KeepsToken r] [hf : ∀ a, FinishesHere (f a)] :
    FinishesHere (r >>= f) :=
  ⟨Reads.bind (hr.reads.mono (fun _ (hn : State.Untagged _ ∧ _) => hn.2) fun _ _ _ => id)
    (fun a => (hf a).reads) (fun _ _ _ _ _ hn hst h => ⟨hst.untagged hn.1, h⟩)
    fun _ _ _ _ _ _ hst _ _ h => hst.eaten h⟩

/-! ### Conditions -/

section ite

variable {c : Prop} [Decidable c]

instance [Goes x] [Goes y] : Goes (if c then x else y) := by split <;> infer_instance

instance [Eats x] [Eats y] : Eats (if c then x else y) := by split <;> infer_instance

instance [EatsHere x] [EatsHere y] : EatsHere (if c then x else y) := by split <;> infer_instance

instance [GoesOn x] [GoesOn y] : GoesOn (if c then x else y) := by split <;> infer_instance

instance [Finishes x] [Finishes y] : Finishes (if c then x else y) := by split <;> infer_instance

end ite

/-- If a question is answered with yes, what follows it is at a token. -/
theorem Reads.branch_token [AsksToken q] {need : State → Prop} {gain : State → α → State → Prop}
    (hx : Reads (fun s => need s ∧ s.AtToken) x gain) (hy : Reads need y gain) :
    Reads need (q >>= fun b => if b = true then x else y) gain := by
  intro text rules hrules context s a u hs hn hrun hu
  obtain ⟨b, t, hq, hf⟩ := run_bind_eq_some.1 hrun
  obtain rfl := AsksToken.asks.eq hq
  cases b with
  | true => exact hx hrules hs ⟨hn, AsksToken.atToken hq⟩ hf hu
  | false => exact hy hrules hs hn hf hu

instance goes_branch_token [AsksToken q] [hx : EatsHere x] [hy : Goes y] :
    Goes (q >>= fun b => if b = true then x else y) :=
  ⟨.branch_token (hx.reads.mono (fun _ => And.right) fun _ _ _ _ => trivial) hy.reads⟩

instance eats_branch_token [AsksToken q] [hx : EatsHere x] [hy : Eats y] :
    Eats (q >>= fun b => if b = true then x else y) :=
  ⟨.branch_token (hx.reads.mono (fun _ => And.right) fun _ _ _ => id) hy.reads⟩

instance goesOn_branch_token [AsksToken q] [hx : FinishesHere x] [hy : GoesOn y] :
    GoesOn (q >>= fun b => if b = true then x else y) :=
  ⟨.branch_token (hx.reads.mono (fun _ h => ⟨h.1.1, h.2⟩) fun _ _ _ _ => trivial) hy.reads⟩

instance finishes_branch_token [AsksToken q] [hx : FinishesHere x] [hy : Finishes y] :
    Finishes (q >>= fun b => if b = true then x else y) :=
  ⟨.branch_token hx.reads hy.reads⟩

/-- If a reader says yes, it has consumed a token, and then everything is gained. -/
theorem Reads.branch_accept [hq : Accepts q] {need need' : State → Prop}
    {gain : State → α → State → Prop} (hx : Reads need' x fun _ _ _ => True) (hy : Reads need y gain)
    (htotal : ∀ ⦃s a u⦄, s.Eaten u → gain s a u)
    (hbehind : ∀ ⦃text s t a u⦄, s.Leads text t → gain t a u → gain s a u)
    (hkeep : ∀ ⦃text s t⦄, s.Leads text t → need s → need t)
    (hneed : ∀ ⦃text s t⦄, s.Good text → s.Leads text t → s.Eaten t → need s → need' t) :
    Reads need (q >>= fun b => if b = true then x else y) gain := by
  intro text rules hrules context s a u hs hn hrun hu
  obtain ⟨b, t, hq', hf⟩ := run_bind_eq_some.1 hrun
  have ht := errors_eq_nil_of_suffix (grows_run hrules.grows _ hf) hu
  obtain ⟨hst, heaten⟩ := hq.reads hrules hs trivial hq' ht
  cases b with
  | true =>
    obtain ⟨htu, -⟩ := hx hrules hst.good (hneed hs hst (heaten rfl) hn) hf hu
    exact ⟨hst.trans htu, htotal ((heaten rfl).of_reaches htu.toReaches)⟩
  | false =>
    obtain ⟨htu, hgain⟩ := hy hrules hst.good (hkeep hst hn) hf hu
    exact ⟨hst.trans htu, hbehind hst hgain⟩

instance eats_branch_accept [Accepts q] [hx : Goes x] [hy : Eats y] :
    Eats (q >>= fun b => if b = true then x else y) :=
  ⟨.branch_accept hx.reads hy.reads (fun _ _ _ h => h) (fun _ _ _ _ _ hst h => hst.eaten h)
    (fun _ _ _ _ => id) fun _ _ _ _ _ _ => id⟩

instance finishes_branch_accept [Accepts q] [hx : GoesOn x] [hy : Finishes y] :
    Finishes (q >>= fun b => if b = true then x else y) :=
  ⟨.branch_accept hx.reads hy.reads (fun _ _ _ h => h) (fun _ _ _ _ _ hst h => hst.eaten h)
    (fun _ _ _ hst => hst.untagged) fun _ _ _ hs hst heaten hn => ⟨hst.untagged hn, heaten.begun hs hst.toReaches⟩⟩

/-! ### Answers -/

instance (priority := low) accepts_of_eats [h : Eats q] : Accepts q :=
  ⟨h.reads.mono (fun _ => id) fun _ _ _ h _ => h⟩

instance accepts_pure_false : Accepts (pure false) where
  reads := by
    intro text rules hrules context s a t hs _ hrun _
    obtain ⟨rfl, rfl⟩ := run_pure_eq_some.1 hrun
    exact ⟨hs.leads, fun h => by cases h⟩

instance accepts_bind {f : α → Reader Bool} [hr : Goes r] [hf : ∀ a, Accepts (f a)] :
    Accepts (r >>= f) :=
  ⟨hr.reads.bind (fun a => (hf a).reads) (fun _ _ _ _ _ _ _ _ => trivial)
    fun _ _ _ _ _ _ hst _ _ h hyes => hst.eaten (h hyes)⟩

instance accepts_ite {c : Prop} [Decidable c] {x y : Reader Bool} [Accepts x] [Accepts y] :
    Accepts (if c then x else y) := by
  split <;> infer_instance

instance accepts_branch_token {x y : Reader Bool} [AsksToken q] [hx : EatsHere x]
    [hy : Accepts y] : Accepts (q >>= fun b => if b = true then x else y) :=
  ⟨.branch_token (hx.reads.mono (fun _ => And.right) fun _ _ _ h _ => h) hy.reads⟩

instance accepts_branch_accept {x y : Reader Bool} [hq : Accepts q] [hx : Goes x]
    [hy : Accepts y] : Accepts (q >>= fun b => if b = true then x else y) :=
  ⟨.branch_accept hx.reads hy.reads (fun _ _ _ h _ => h)
    (fun _ _ _ _ _ hst h hyes => hst.eaten (h hyes)) (fun _ _ _ _ => id) fun _ _ _ _ _ _ => id⟩

theorem and_eq : (q <&&> q') = q >>= fun b => if b = true then q' else pure false := by
  show (q >>= _) = _
  congr 1
  funext b
  cases b <;> rfl

theorem or_eq : (q <||> q') = q >>= fun b => if b = true then pure true else q' := by
  show (q >>= _) = _
  congr 1
  funext b
  cases b <;> rfl

instance accepts_and_left [Accepts q] [Goes q'] : Accepts (q <&&> q') := by
  rw [and_eq]
  infer_instance

instance accepts_and_right [Goes q] [Accepts q'] : Accepts (q <&&> q') := by
  rw [and_eq]
  infer_instance

/-! ### Questions -/

instance asks_pure (a : α) : Asks (pure a : Reader α) where
  eq hrun := (run_pure_eq_some.1 hrun).2

instance asks_bind [hr : Asks r] [hf : ∀ a, Asks (f a)] : Asks (r >>= f) where
  eq hrun := by
    obtain ⟨a, t, hr', hf'⟩ := run_bind_eq_some.1 hrun
    rw [(hf a).eq hf', hr.eq hr']

instance asks_ite {c : Prop} [Decidable c] [Asks x] [Asks y] : Asks (if c then x else y) := by
  split <;> infer_instance

instance asks_ask (question : Question α) : Asks (.ask question) where
  eq hrun := by cases hrun; rfl

instance asks_kind : Asks kind :=
  asks_ask _

instance asks_onNewLine : Asks onNewLine :=
  asks_ask _

instance asks_isAssert : Asks isAssert :=
  asks_ask _

instance asks_mode : Asks mode where
  eq hrun := by cases hrun; rfl

instance asks_lookAhead : Asks (lookAhead r) where
  eq hrun := (run_lookAhead_eq_some.1 hrun).1

instance asks_opposite [Asks q] : Asks (opposite q) := by unfold opposite; infer_instance

instance asks_and [Asks q] [Asks q'] : Asks (q <&&> q') := by rw [and_eq]; infer_instance

instance asks_or [Asks q] [Asks q'] : Asks (q <||> q') := by rw [or_eq]; infer_instance

instance asks_onSameLine : Asks onSameLine := by unfold onSameLine; infer_instance

instance asks_isAtAny (ks : List TokenKind) : Asks (isAtAny ks) := by unfold isAtAny; infer_instance

instance asks_atStatementEnd : Asks atStatementEnd := by unfold atStatementEnd; infer_instance

instance asks_markupAllowed : Asks markupAllowed := by unfold markupAllowed; infer_instance

instance asks_inForbidden : Asks inForbidden := by unfold inForbidden; infer_instance

instance asks_conditionalForbidden : Asks conditionalForbidden := by
  unfold conditionalForbidden
  infer_instance

instance asks_nextIsAny (ks : List TokenKind) : Asks (nextIsAny ks) :=
  asks_lookAhead

/-! ### Questions about the token at hand -/

/-- A truth value that is `false`. -/
class IsFalse (b : Bool) : Prop where
  eq : b = false

instance isFalse_false : IsFalse false := ⟨rfl⟩

/-- Is this the end of the file? -/
@[reducible] def isEnd : TokenKind → Bool
  | .endOfFile => true
  | _ => false

/-- Lists of tokens without the end of the file. -/
class TokensOnly (ks : List TokenKind) : Prop where
  not_mem : .endOfFile ∉ ks

instance tokensOnly_nil : TokensOnly [] := ⟨by simp⟩

instance tokensOnly_cons {k : TokenKind} {ks : List TokenKind} [hk : IsFalse (isEnd k)]
    [hks : TokensOnly ks] : TokensOnly (k :: ks) where
  not_mem h := by
    rcases List.mem_cons.1 h with rfl | h
    · exact absurd hk.eq (by decide)
    · exact hks.not_mem h

/-- A question about the kind of the token at hand that the end of the file answers with no. -/
theorem asksToken_of_kind {p : TokenKind → Bool} (h : p .endOfFile = false) :
    AsksToken (do return p (← kind)) where
  asks := inferInstance
  atToken {rules context s t} hrun := by
    obtain ⟨k, t', hk, hp⟩ := run_bind_eq_some.1 hrun
    cases hk
    obtain ⟨hyes, -⟩ := run_pure_eq_some.1 hp
    intro hend
    have hk : s.scanner.kind = .endOfFile := hend
    rw [show Question.kind.answer s.scanner = s.scanner.kind from rfl, hk, h] at hyes
    cases hyes

instance asksToken_isAt {k : TokenKind} [hk : IsFalse (isEnd k)] : AsksToken (isAt k) := by
  refine asksToken_of_kind (p := fun k' => decide (k' = k)) ?_
  rw [decide_eq_false_iff_not]
  rintro rfl
  exact absurd hk.eq (by decide)

instance asksToken_isAtAny {ks : List TokenKind} [h : TokensOnly ks] : AsksToken (isAtAny ks) := by
  refine asksToken_of_kind (p := fun k => ks.contains k) ?_
  simpa using h.not_mem

instance asksToken_atIdentifier : AsksToken atIdentifier :=
  asksToken_of_kind (p := TokenKind.isIdentifierLike) (by decide)

instance asksToken_atWord : AsksToken atWord :=
  asksToken_of_kind (p := fun k => k = .identifier || k.isKeywordToken) (by decide)

instance asksToken_and_left [AsksToken q] [Asks q'] : AsksToken (q <&&> q') where
  asks := inferInstance
  atToken hrun := by
    rw [and_eq] at hrun
    obtain ⟨b, t, hq, hf⟩ := run_bind_eq_some.1 hrun
    cases b with
    | true => exact AsksToken.atToken hq
    | false => cases (run_pure_eq_some.1 hf).1

instance asksToken_and_right [hq : Asks q] [hq' : AsksToken q'] : AsksToken (q <&&> q') where
  asks := inferInstance
  atToken hrun := by
    rw [and_eq] at hrun
    obtain ⟨b, t, hb, hf⟩ := run_bind_eq_some.1 hrun
    obtain rfl := hq.eq hb
    cases b with
    | true => exact hq'.atToken hf
    | false => cases (run_pure_eq_some.1 hf).1

instance asksToken_or [hq : AsksToken q] [hq' : AsksToken q'] : AsksToken (q <||> q') where
  asks := inferInstance
  atToken hrun := by
    rw [or_eq] at hrun
    obtain ⟨b, t, hb, hf⟩ := run_bind_eq_some.1 hrun
    obtain rfl := hq.asks.eq hb
    cases b with
    | true => exact hq.atToken hb
    | false => exact hq'.atToken hf

/-! ### Cases by the kind of the token at hand -/

section

variable {f : TokenKind → Reader α}

/-- What a reader promises for each kind, perhaps only if that is not the end of the file. -/
theorem Reads.ofKind {need : State → Prop} {gain : State → α → State → Prop}
    (h : ∀ k, Reads need (f k) gain ∨
      k ≠ .endOfFile ∧ Reads (fun s => need s ∧ s.AtToken) (f k) gain) :
    Reads need (kind >>= f) gain := by
  intro text rules hrules context s a u hs hn hrun hu
  obtain ⟨k, t, hk, hf⟩ := run_bind_eq_some.1 hrun
  cases hk
  rcases h s.scanner.kind with h | ⟨htoken, h⟩
  · exact h hrules hs hn hf hu
  · exact h hrules hs ⟨hn, htoken⟩ hf hu

theorem Asks.ofKind (h : ∀ k, Asks (f k)) : Asks (kind >>= f) :=
  asks_bind

theorem Goes.ofKind (h : ∀ k, Goes (f k) ∨ k ≠ .endOfFile ∧ EatsHere (f k)) :
    Goes (kind >>= f) :=
  ⟨.ofKind fun k => (h k).imp (fun h => h.reads) fun ⟨htoken, h⟩ =>
    ⟨htoken, h.reads.mono (fun _ => And.right) fun _ _ _ _ => trivial⟩⟩

theorem Eats.ofKind (h : ∀ k, Eats (f k) ∨ k ≠ .endOfFile ∧ EatsHere (f k)) :
    Eats (kind >>= f) :=
  ⟨.ofKind fun k => (h k).imp (fun h => h.reads) fun ⟨htoken, h⟩ =>
    ⟨htoken, h.reads.mono (fun _ => And.right) fun _ _ _ => id⟩⟩

theorem GoesOn.ofKind (h : ∀ k, GoesOn (f k) ∨ k ≠ .endOfFile ∧ FinishesHere (f k)) :
    GoesOn (kind >>= f) :=
  ⟨.ofKind fun k => (h k).imp (fun h => h.reads) fun ⟨htoken, h⟩ =>
    ⟨htoken, h.reads.mono (fun _ h => ⟨h.1.1, h.2⟩) fun _ _ _ _ => trivial⟩⟩

theorem Finishes.ofKind (h : ∀ k, Finishes (f k) ∨ k ≠ .endOfFile ∧ FinishesHere (f k)) :
    Finishes (kind >>= f) :=
  ⟨.ofKind fun k => (h k).imp (fun h => h.reads) fun ⟨htoken, h⟩ => ⟨htoken, h.reads⟩⟩

theorem Accepts.ofKind {f : TokenKind → Reader Bool} (h : ∀ k, Accepts (f k)) :
    Accepts (kind >>= f) :=
  accepts_bind

end

/-! ### Words -/

instance goes_advance_by (scan : Scan) : Goes (.advance scan) where
  reads := by
    intro text rules hrules context s a t hs _ hrun _
    cases hrun
    exact ⟨hs.leads_advance scan, trivial⟩

instance eatsHere_advance_by (scan : Scan) : EatsHere (.advance scan) where
  reads := by
    intro text rules hrules context s a t hs hn hrun _
    cases hrun
    exact ⟨hs.leads_advance scan, hs.eaten_advance hn scan⟩

instance goes_advance : Goes advance :=
  goes_advance_by .code

instance eatsHere_advance : EatsHere advance :=
  eatsHere_advance_by .code

instance goes_rescan (scan : Rescan) : Goes (.rescan scan) where
  reads := by
    intro text rules hrules context s a t hs _ hrun _
    cases hrun
    exact ⟨hs.leads_rescan scan, trivial⟩

instance eatsHere_leaf {k : NodeKind} {scan : Scan} [hk : IsFalse (isMarkupNode k)] :
    EatsHere (.leaf k scan) where
  reads := by
    intro text rules hrules context s a t hs hn hrun _
    cases hrun
    exact ⟨hs.leads_leaf hn hk.eq scan, hs.eaten_leaf hn k scan⟩

instance eatsHere_tokenNodeAs {k : NodeKind} [IsFalse (isMarkupNode k)] :
    EatsHere (tokenNodeAs k) :=
  eatsHere_leaf

instance eatsHere_tokenNode : EatsHere tokenNode := by unfold tokenNode; infer_instance

/-- Behind a noted error no run is without errors, so anything can be promised. -/
theorem reads_report {problem : SyntaxProblem} {f : Unit → Reader β} {need : State → Prop}
    {gain : State → β → State → Prop} : Reads need (report problem >>= f) gain :=
  fun _ _ hrules _ _ _ _ _ _ hrun hu => absurd hu (errors_ne_nil_of_run_report hrules.grows hrun)

instance eats_report_bind {problem : SyntaxProblem} {f : Unit → Reader β} :
    Eats (report problem >>= f) :=
  ⟨reads_report⟩

instance eats_report {problem : SyntaxProblem} : Eats (report problem) where
  reads := by
    intro text rules hrules context s a t hs _ hrun ht
    cases hrun
    exact absurd ht (State.errors_report_ne_nil _ _ _)

instance eats_missing {problem : SyntaxProblem} : Eats (missing problem) :=
  eats_report_bind

instance goesOn_wrap {k : NodeKind} [hk : IsFalse (isMarkup k)] : GoesOn (wrap k) where
  reads := by
    intro text rules hrules context s a t hs hn hrun _
    cases hrun
    have hform := Tree.formed_of_isMarkup_eq_false hk.eq s.start s.lastStop s.pieces.reverse
    exact ⟨hs.leads_wrap hn.2 (Tree.ne_token_of_isMarkup hk.eq)
      (Tree.ne_sourceFile_of_isMarkup hk.eq) (Or.inr hn.1) hform
      (Tree.isTag_eq_false_of_isMarkup hk.eq), trivial⟩

instance goes_dropPieces : Goes .dropPieces where
  reads := by
    intro text rules hrules context s a t hs _ hrun _
    cases hrun
    exact ⟨⟨⟨⟨hs.scanner, hs.lastStop_le, hs.start_le, hs.place_start, hs.place_lastStop, trivial,
      by simp, by simp, by simp⟩, rfl, le_rfl, le_rfl, List.suffix_rfl⟩,
      fun _ => by simp [State.Untagged]⟩, trivial⟩

/-- What an inner construct promises in a state without pieces, the whole promises in any state. -/
theorem Reads.scope {need need' : State → Prop} {gain gain' : State → α → State → Prop}
    (h : Reads need' r gain') (hneed : ∀ s : State, need s → need' s.openScope)
    (hgain : ∀ s a t, gain' s.openScope a t → gain s a (t.closeScope s)) :
    Reads need (scope r) gain := by
  intro text rules hrules context s a u hs hn hrun hu
  obtain ⟨t, hr, rfl⟩ := run_scope_eq_some.1 hrun
  obtain ⟨hst, hg⟩ := h hrules hs.openScope (hneed s hn) hr hu
  exact ⟨hs.leads_closeScope hst.toReaches (hst.untagged s.untagged_openScope), hgain s a t hg⟩

instance goes_scope [h : Goes r] : Goes (scope r) :=
  ⟨h.reads.scope (fun _ => id) fun _ _ _ => id⟩

instance eats_scope [h : Finishes r] : Eats (scope r) :=
  ⟨h.reads.scope (fun s _ => s.untagged_openScope) fun _ _ _ => id⟩

instance eatsHere_scope [h : FinishesHere r] : EatsHere (scope r) :=
  ⟨h.reads.scope (fun s hs => ⟨s.untagged_openScope, hs⟩) fun _ _ _ => id⟩

theorem Reads.moves {r : Reader Unit} {need : State → Prop} {gain : State → State → Prop}
    (h : Reads need r fun s _ t => gain s t) : Reads need (.moves r) fun s _ t => gain s t :=
  fun _ _ hrules _ _ _ _ hs hn hrun ht => h hrules hs hn (run_moves_eq_some.1 hrun).1 ht

instance goes_moves {r : Reader Unit} [h : Goes r] : Goes (.moves r) :=
  ⟨h.reads.moves⟩

instance accepts_attempt [h : Accepts q] : Accepts (attempt q) where
  reads := by
    intro text rules hrules context s b u hs _ hrun hu
    rcases run_attempt_eq_some hrun with ⟨rfl, rfl⟩ | ⟨rfl, hq, -⟩
    · exact ⟨hs.leads, fun h => by cases h⟩
    · exact h.reads hrules hs trivial hq hu

/-- Another mode changes no promise. -/
theorem Reads.within {change : Mode → Mode} {need : State → Prop}
    {gain : State → α → State → Prop} (h : Reads need r gain) :
    Reads need (.within change r) gain :=
  fun _ _ hrules _ _ _ _ hs hn hrun ht => h hrules hs hn hrun ht

instance goes_within {change : Mode → Mode} [h : Goes r] : Goes (.within change r) :=
  ⟨h.reads.within⟩

instance eats_within {change : Mode → Mode} [h : Eats r] : Eats (.within change r) :=
  ⟨h.reads.within⟩

instance eats_nested {beyond inner : Reader Unit} [h : Eats inner] :
    Eats (nested beyond inner) where
  reads := by
    intro text rules hrules context s a u hs hn hrun hu
    obtain ⟨_, hinner⟩ := exists_run_of_run_nested hrules.grows hrun hu
    exact h.reads hrules hs hn hinner hu

instance eats_call {construct : Construct} [h : IsFalse construct.needsToken] :
    Eats (call construct) where
  reads := fun _ _ hrules _ _ _ _ hs _ hrun ht =>
    hrules.leads hs (fun hneeds => by simp [h.eq] at hneeds) hrun ht

instance eatsHere_call {construct : Construct} : EatsHere (call construct) where
  reads := fun _ _ hrules _ _ _ _ hs hn hrun ht => hrules.leads hs (fun _ => hn) hrun ht

/-! ### Repetition -/

/-- What each step of a repetition keeps and gains, any number of steps keep and gain. -/
theorem Reads.iterate {step : Reader (Option α)} {need : State → Prop}
    {gain : State → State → Prop} (h : Reads need step fun s _ t => gain s t)
    (hkeep : ∀ ⦃text s t⦄, s.Leads text t → need s → need t)
    (htrans : ∀ ⦃s t u⦄, gain s t → gain t u → gain s u) {text : List Char} {rules : Rules}
    (hrules : rules.Sound text) {context : Context} {s u : State} {a : α} (n : ℕ)
    (hs : s.Good text) (hn : need s)
    (hrun : Grammar.iterate (step.run rules) n context s = some (a, u)) (hu : u.errors = []) :
    s.Leads text u ∧ gain s u := by
  induction n generalizing s with
  | zero => cases hrun
  | succ n ih =>
    simp only [Grammar.iterate] at hrun
    split at hrun
    next => cases hrun
    next hstep => cases hrun; exact h hrules hs hn hstep hu
    next t hstep =>
      have hgrows := grows_iterate (grows_run hrules.grows step) n hrun
      obtain ⟨hst, hgain⟩ := h hrules hs hn hstep (errors_eq_nil_of_suffix hgrows hu)
      obtain ⟨htu, hgain'⟩ := ih hst.good (hkeep hst hn) hrun
      exact ⟨hst.trans htu, htrans hgain hgain'⟩

theorem Reads.loop {step : Reader (Option α)} {need : State → Prop}
    {gain : State → State → Prop} (h : Reads need step fun s _ t => gain s t)
    (hkeep : ∀ ⦃text s t⦄, s.Leads text t → need s → need t)
    (htrans : ∀ ⦃s t u⦄, gain s t → gain t u → gain s u) :
    Reads need (.loop step) fun s _ t => gain s t :=
  fun _ _ hrules _ _ _ _ hs hn hrun hu => h.iterate hkeep htrans hrules _ hs hn hrun hu

/-- The first step of a repetition is made in any case. -/
theorem eats_loop {step : Reader (Option α)} [h : Eats step] : Eats (.loop step) where
  reads := by
    intro text rules hrules context s a u hs hn hrun hu
    obtain ⟨n, hsteps⟩ : ∃ n, context.size + 2 = n + 1 := ⟨_, rfl⟩
    change iterate (step.run rules) (context.size + 2) context s = some (a, u) at hrun
    rw [hsteps] at hrun
    simp only [iterate] at hrun
    split at hrun
    next => cases hrun
    next hfirst => cases hrun; exact h.reads hrules hs hn hfirst hu
    next t hfirst =>
      have hgrows := grows_iterate (grows_run hrules.grows step) n hrun
      obtain ⟨hst, heaten⟩ := h.reads hrules hs hn hfirst (errors_eq_nil_of_suffix hgrows hu)
      obtain ⟨htu, -⟩ := (goes_of_eats (r := step)).reads.iterate (fun _ _ _ _ => id)
        (fun _ _ _ _ => id) hrules n hst.good trivial hrun hu
      exact ⟨hst.trans htu, heaten.of_reaches htu.toReaches⟩

instance goes_repeatWhile [Goes q] : Goes (repeatWhile q) :=
  ⟨.loop (Goes.reads (r := do if ← q then return none else return some ())) (fun _ _ _ _ => id)
    fun _ _ _ _ => id⟩

instance goesOn_repeatWhile [GoesOn q] : GoesOn (repeatWhile q) :=
  ⟨.loop (GoesOn.reads (r := do if ← q then return none else return some ()))
    (fun _ _ _ hst hn => ⟨hst.untagged hn.1, hn.2.of_reaches hst.toReaches⟩) fun _ _ _ _ => id⟩

instance eats_repeatWhile [Eats q] : Eats (repeatWhile q) := by
  unfold repeatWhile
  exact eats_loop

/-! ### Combinations -/

section

variable {x : Reader Unit}

instance goes_optionally_token [AsksToken q] [EatsHere x] : Goes (optionally q x) := by
  unfold optionally
  infer_instance

instance goes_optionally [Goes q] [Goes x] : Goes (optionally q x) := by
  unfold optionally
  infer_instance

instance eats_optionally [Eats q] [Goes x] : Eats (optionally q x) := by
  unfold optionally
  infer_instance

instance goesOn_optionally_token [AsksToken q] [FinishesHere x] : GoesOn (optionally q x) := by
  unfold optionally
  infer_instance

instance goesOn_optionally [GoesOn q] [GoesOn x] : GoesOn (optionally q x) := by
  unfold optionally
  infer_instance

instance eats_node {k : NodeKind} [IsFalse (isMarkup k)] [Finishes x] : Eats (node k x) := by
  unfold node
  infer_instance

instance eatsHere_node {k : NodeKind} [IsFalse (isMarkup k)] [FinishesHere x] :
    EatsHere (node k x) := by
  unfold node
  infer_instance

instance goes_repeatedly_token [AsksToken q] [EatsHere x] : Goes (repeatedly q x) := by
  unfold repeatedly
  infer_instance

instance goes_repeatedly [Goes q] [Goes x] : Goes (repeatedly q x) := by
  unfold repeatedly
  infer_instance

instance goesOn_repeatedly [GoesOn q] [GoesOn x] : GoesOn (repeatedly q x) := by
  unfold repeatedly
  infer_instance

end

section

variable {k : TokenKind} [IsFalse (isEnd k)] {ks : List TokenKind} {x : Reader Unit}

instance accepts_accept? : Accepts (accept? k) := by unfold accept?; infer_instance

instance goes_accept : Goes (accept k) := by unfold accept; infer_instance

instance eats_expect? : Eats (expect? k) := by unfold expect?; infer_instance

instance eats_expect : Eats (expect k) := by unfold expect; infer_instance

instance goes_acceptAny [TokensOnly ks] : Goes (acceptAny ks) := by unfold acceptAny; infer_instance

instance goes_semicolon : Goes semicolon := by unfold semicolon; infer_instance

instance accepts_tokenNodeIf? [AsksToken q] : Accepts (tokenNodeIf? q) := by
  unfold tokenNodeIf?
  infer_instance

instance eats_identifier : Eats identifier := by unfold identifier; infer_instance

instance eats_identifierName : Eats identifierName := by unfold identifierName; infer_instance

instance eats_moduleString : Eats moduleString := by unfold moduleString; infer_instance

instance goes_discard [Goes r] : Goes (discard r) :=
  inferInstanceAs (Goes (r >>= fun _ => pure ()))

instance goes_commaSeparated [Goes x] : Goes (commaSeparated k x) := by
  unfold commaSeparated
  infer_instance

instance goes_commaSeparatedWithHoles [Goes x] : Goes (commaSeparatedWithHoles k x) := by
  unfold commaSeparatedWithHoles
  infer_instance

instance eats_commaSeparatedMany [Eats x] : Eats (commaSeparatedMany x) := by
  unfold commaSeparatedMany
  infer_instance

instance goes_keptItem [Goes x] : Goes (keptItem x) := by unfold keptItem; infer_instance

instance goes_itemsUntil {problem : SyntaxProblem} [Goes x] :
    Goes (itemsUntil ks problem x) := by
  unfold itemsUntil
  infer_instance

end

end ExpectError.Grammar
