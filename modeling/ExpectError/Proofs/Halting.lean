import ExpectError.Proofs.Equations
import ExpectError.Proofs.Lockstep
import ExpectError.Proofs.Spans

/-!
# Readers that come to an end

Outside markup, every reader comes to an end, whatever the text is and however many errors it notes.
The measure is the number of bytes that are left, eight times, and within one place of the text the
level of the construct that is being read: a production that has consumed nothing only reads
constructs of a lower level. A repetition makes another step only behind a token that it has
consumed.

In markup there need not be an end, but it makes no difference to that how deep the recursion may be
and how many steps a repetition may have, as long as both are enough for the bytes that are left. So
each promise below is one about two bounds: the reader comes to the same end within both, or there is
markup, and it has an end within neither.

* `Construct.level`: the order in which constructs read one another without consuming a token;
* `Runs`, `Bounds.Suffice`: a run within two bounds, and bounds that decide how constructs are read;
* `Halts`, `HaltsHere`: a reader comes to an end, the latter if there is a token at hand;
* `Moves`, `MovesAt`, `StaysOrMoves`: it comes to an end and consumes the token at hand;
* `Steps`, `StepsHere`, `StepsOn`: it comes to an end, and the answer that makes a repetition go on
  tells that a token has been consumed.
-/

namespace ExpectError.Grammar

open Text (byteLength)

variable {α β : Type} {markup : Bool} {text : List Char} {rules : Rules} {bounds wide : Bounds}
  {context : Context} {s t u : State}

/-- A construct that has consumed nothing only reads constructs of a lower level. -/
def Construct.level : Construct → ℕ
  | .newExpression | .bindingName | .typeOperator | .innerNamespace | .markup _ => 0
  | .leftHandSide | .type => 1
  | .unary => 2
  | .binary _ => 3
  | .assignment => 4
  | .statement => 5

/-- The construct is read only where a token has been seen. -/
@[reducible] def Construct.startsAtToken : Construct → Bool
  | .newExpression | .markup _ => true
  | _ => false

/-! ### Going on in a text -/

namespace State

/-- The scanner stands on a token of the text, and only at the end of the text on one without
characters. -/
structure Stands (text : List Char) (s : State) : Prop where
  sound : s.scanner.Sound text
  full : s.scanner.Full

/-- There is a token at hand that takes up a part of the text. -/
def Within (text : List Char) (s : State) : Prop :=
  s.position < byteLength text

/-- The number of bytes from the token at hand on. -/
def left (text : List Char) (s : State) : ℕ :=
  byteLength text - s.position

/-- The token at hand in the first state has been consumed in the second one. -/
def Moved (s t : State) : Prop :=
  s.position < t.position

/-- The scanner has not been moved back. -/
structure Onward (text : List Char) (s t : State) : Prop where
  stands : t.Stands text
  position_le : s.position ≤ t.position

theorem Stands.onward (h : s.Stands text) : s.Onward text s :=
  ⟨h, le_rfl⟩

theorem Onward.trans (hst : s.Onward text t) (htu : t.Onward text u) : s.Onward text u :=
  ⟨htu.stands, hst.position_le.trans htu.position_le⟩

theorem Onward.moved (hst : s.Onward text t) (h : t.Moved u) : s.Moved u :=
  lt_of_le_of_lt hst.position_le h

theorem Moved.of_onward (h : s.Moved t) (htu : t.Onward text u) : s.Moved u :=
  lt_of_lt_of_le h htu.position_le

theorem Stands.position_le (h : s.Stands text) : s.position ≤ byteLength text :=
  h.sound.reached.isBoundary.le

theorem Stands.within_of_atToken (h : s.Stands text) (htoken : s.AtToken) : s.Within text :=
  lt_of_lt_of_le (h.sound.lt htoken) h.sound.reached_stop.isBoundary.le

theorem Stands.within_of_kind (h : s.Stands text) {k : TokenKind} (hkind : s.scanner.kind = k)
    (hk : k ≠ .endOfFile) : s.Within text :=
  h.within_of_atToken fun hend => hk (hkind.symm.trans hend)

theorem Onward.left_le (hst : s.Onward text t) : t.left text ≤ s.left text := by
  have := hst.position_le
  unfold left
  omega

/-- Behind a consumed token there are fewer bytes left. -/
theorem Onward.left_lt (hst : s.Onward text t) (h : s.Moved t) : t.left text < s.left text := by
  have := hst.stands.position_le
  unfold Moved at h
  unfold left
  omega

theorem Within.of_not_moved (h : s.Within text) (hst : s.Onward text t) (hmoved : ¬ s.Moved t) :
    t.Within text := by
  have := hst.position_le
  unfold Within Moved at *
  omega

theorem Stands.onward_advance (h : s.Stands text) (scan : Scan) : s.Onward text (s.advance scan) :=
  ⟨⟨sound_scan scan h.sound, scan.full_apply s.scanner⟩, position_le_advance h.sound scan⟩

theorem Stands.moved_advance (h : s.Stands text) (hwithin : s.Within text) (scan : Scan) :
    s.Moved (s.advance scan) := by
  have hrest : s.scanner.start.rest ≠ [] := by
    intro hnil
    obtain ⟨passed, htext, hpos⟩ := h.sound.reached
    have hpassed : text = passed := by simpa [Cursor.ofText, hnil] using htext
    have hsize : s.position = byteLength text := by
      simpa [State.position, Cursor.ofText, ← hpassed] using hpos
    exact absurd hwithin (by simp [Within, hsize])
  exact lt_of_lt_of_le (h.full hrest) (stop_le_start_scan scan s.scanner)

theorem Stands.onward_rescan (h : s.Stands text) (scan : Rescan) :
    s.Onward text (s.rescan scan) := by
  have hsame := sameStart_rescan scan h.sound
  exact ⟨⟨h.sound.of_sameStart hsame, scan.full_apply h.sound h.full⟩,
    (congrArg Cursor.pos hsame.start_eq).ge⟩

/-- All that matters for going on is the scanner. -/
theorem Onward.of_scanner_eq {s' t' : State} (hst : s.Onward text t) (hs : s'.scanner = s.scanner)
    (ht : t'.scanner = t.scanner) : s'.Onward text t' := by
  obtain ⟨⟨hsound, hfull⟩, hle⟩ := hst
  refine ⟨⟨ht ▸ hsound, ht ▸ hfull⟩, ?_⟩
  simpa only [State.position, hs, ht] using hle

theorem Stands.of_scanner_eq (h : s.Stands text) (ht : t.scanner = s.scanner) : t.Stands text :=
  ⟨ht ▸ h.sound, ht ▸ h.full⟩

/-- No run moves the scanner back. -/
theorem Stands.onward_run (h : s.Stands text) {r : Reader α} {n : ℕ} {a : α}
    (hrun : r.run (rulesWithin n) context s = some (a, t)) : s.Onward text t := by
  let p (scanner : Scanner) (_ : List Token) : Prop :=
    (scanner.Sound text ∧ scanner.Full) ∧ s.position ≤ scanner.start.pos
  have hkept : p t.scanner t.tokens := by
    refine invariant_run (fun u scan hu => ?_) (fun u scan hu => ?_)
      ⟨⟨h.sound, h.full⟩, le_rfl⟩ hrun
    · have hnext := Stands.onward_advance (s := u) ⟨hu.1.1, hu.1.2⟩ scan
      exact ⟨⟨hnext.stands.sound, hnext.stands.full⟩, hu.2.trans hnext.position_le⟩
    · have hsame := Stands.onward_rescan (s := u) ⟨hu.1.1, hu.1.2⟩ scan
      exact ⟨⟨hsame.stands.sound, hsame.stands.full⟩, hu.2.trans hsame.position_le⟩
  exact ⟨⟨hkept.1.1, hkept.1.2⟩, hkept.2⟩

end State

open State

/-! ### What it is to come to an end -/

/-- How deep constructs may hold one another, and how many steps a repetition may have. -/
structure Bounds where
  depth : ℕ
  steps : ℕ

/-- What a reader does within bounds. -/
def Bounds.run (bounds : Bounds) (r : Reader α) : Action α := fun context s =>
  r.run (rulesWithin bounds.depth) { context with size := bounds.steps } s

/-- Within some bounds and within wider ones a run comes to the same end further on in the text, and
its answer and its last state have some property. Or there is markup, and the run has an end within
neither of them. -/
inductive Runs (markup : Bool) (text : List Char) (run wide : State → Option (α × State))
    (s : State) (gain : α → State → Prop) : Prop
  | ends {a : α} {t : State} (run_eq : run s = some (a, t)) (wide_eq : wide s = some (a, t))
      (onward : s.Onward text t) (gains : gain a t)
  | never (allowed : markup = true) (run_eq : run s = none) (wide_eq : wide s = none)

/-- Elements and fragments are read only where there is markup. -/
class Construct.IsFor (markup : Bool) (construct : Construct) : Prop where
  allowed : ∀ amongChildren, construct = .markup amongChildren → markup = true

/-- Two bounds between which there is no difference: all constructs run within both, if eight times
the number of bytes left and the level of the construct are within a budget. A token has to be at hand
where a construct starts at one. -/
structure Bounds.Suffice (markup : Bool) (text : List Char) (budget : ℕ) (bounds wide : Bounds) :
    Prop where
  steps_le : byteLength text ≤ bounds.steps
  wide_steps_le : byteLength text ≤ wide.steps
  calls : ∀ ⦃construct context s⦄, construct.IsFor markup → context.mode.markup = markup →
    s.Stands text → (construct.startsAtToken = true → s.Within text) →
    8 * s.left text + construct.level < budget →
    Runs markup text (bounds.run (call construct) context) (wide.run (call construct) context) s
      fun _ _ => True

/-- From a state with some property, a reader that costs no more than the budget runs within both
bounds, and where it ends, its answer and its last state have some relation to the first one. -/
def Ends (markup : Bool) (need : List Char → State → Prop) (cost : ℕ) (r : Reader α)
    (gain : State → α → State → Prop) : Prop :=
  ∀ ⦃text budget bounds wide⦄, Bounds.Suffice markup text budget bounds wide → ∀ ⦃context s⦄,
    context.mode.markup = markup → s.Stands text → need text s → 8 * s.left text + cost ≤ budget →
    Runs markup text (bounds.run r context) (wide.run r context) s (gain s)

/-- The reader comes to an end. -/
class Halts (markup : Bool) (cost : ℕ) (r : Reader α) : Prop where
  ends : Ends markup (fun _ _ => True) cost r fun _ _ _ => True

/-- The reader comes to an end if there is a token at hand. -/
class HaltsHere (markup : Bool) (cost : ℕ) (r : Reader α) : Prop where
  ends : Ends markup Within cost r fun _ _ _ => True

/-- If there is a token at hand, the reader comes to an end and consumes it. -/
class Moves (markup : Bool) (cost : ℕ) (r : Reader α) : Prop where
  ends : Ends markup Within cost r fun s _ t => s.Moved t

/-- If a token of a given kind is at hand, the reader comes to an end and consumes it. -/
class MovesAt (markup : Bool) (kind : TokenKind) (cost : ℕ) (r : Reader α) : Prop where
  ends : Ends markup (fun _ s => s.scanner.kind = kind) cost r fun s _ t => s.Moved t

/-- The reader comes to an end and either consumes the token at hand or leaves it as it is. -/
class StaysOrMoves (markup : Bool) (cost : ℕ) (r : Reader α) : Prop where
  ends : Ends markup (fun _ _ => True) cost r fun s _ t => t.scanner = s.scanner ∨ s.Moved t

/-- The reader comes to an end, and if it says yes it has consumed the token at hand. -/
class Steps (markup : Bool) (cost : ℕ) (q : Reader Bool) : Prop where
  ends : Ends markup (fun _ _ => True) cost q fun s yes t => yes = true → s.Moved t

/-- If there is a token at hand, the reader comes to an end, and if it says yes it has consumed the
token. -/
class StepsHere (markup : Bool) (cost : ℕ) (q : Reader Bool) : Prop where
  ends : Ends markup Within cost q fun s yes t => yes = true → s.Moved t

/-- The step of a repetition comes to an end, and unless it has a result it has consumed the token at
hand. -/
class StepsOn (markup : Bool) (cost : ℕ) (step : Reader (Option α)) : Prop where
  ends : Ends markup (fun _ _ => True) cost step fun s a t => a = none → s.Moved t

/-- The question is answered with no only if there is a token at hand. -/
class EndsYes (q : Reader Bool) : Prop where
  asks : Asks q
  atToken : ∀ {rules : Rules} {context : Context} {s t : State},
    q.run rules context s = some (false, t) → s.AtToken

/-- The question is answered with yes only if a token of a given kind is at hand. -/
class Finds (kind : outParam TokenKind) (q : Reader Bool) : Prop where
  asks : Asks q
  kind_eq : ∀ {rules : Rules} {context : Context} {s t : State},
    q.run rules context s = some (true, t) → s.scanner.kind = kind

/-- Where there is no markup the question is answered with no. -/
class SaysNo (q : Reader Bool) : Prop where
  eq : ∀ {rules : Rules} {context : Context} {s t : State} {yes : Bool},
    context.mode.markup = false → q.run rules context s = some (yes, t) → yes = false

/-- The construct can be read at the given cost. -/
class Construct.Below (construct : Construct) (cost : ℕ) : Prop where
  lt : construct.level < cost

section

variable {r : Reader α} {f : α → Reader β} {q q' : Reader Bool} {x y : Reader α} {cost : ℕ}

/-! ### From one promise to another -/

/-- Where it ends, more may be known. -/
theorem Runs.of_run {run wide : State → Option (α × State)} {gain gain' : α → State → Prop}
    (h : Runs markup text run wide s gain)
    (hgain : ∀ a t, run s = some (a, t) → s.Onward text t → gain a t → gain' a t) :
    Runs markup text run wide s gain' := by
  cases h with
  | ends hrun hwide hst hg => exact .ends hrun hwide hst (hgain _ _ hrun hst hg)
  | never hmarkup hrun hwide => exact .never hmarkup hrun hwide

theorem Runs.mono {run wide : State → Option (α × State)} {gain gain' : α → State → Prop}
    (h : Runs markup text run wide s gain)
    (hgain : ∀ a t, s.Onward text t → gain a t → gain' a t) : Runs markup text run wide s gain' :=
  h.of_run fun a t _ => hgain a t

/-- What a run comes to may be changed afterwards. -/
theorem Runs.map {run wide : State → Option (α × State)} {run' wide' : State → Option (β × State)}
    {gain : α → State → Prop} {gain' : β → State → Prop} (h : Runs markup text run wide s gain)
    {g : α × State → β × State} (hrun : run' t = (run s).map g) (hwide : wide' t = (wide s).map g)
    (hgain : ∀ a u, s.Onward text u → gain a u →
      t.Onward text (g (a, u)).2 ∧ gain' (g (a, u)).1 (g (a, u)).2) :
    Runs markup text run' wide' t gain' := by
  cases h with
  | never hmarkup hnone hnone' =>
    exact .never hmarkup (by rw [hrun, hnone, Option.map_none])
      (by rw [hwide, hnone', Option.map_none])
  | ends hsome hsome' hst hg =>
    obtain ⟨honward, hgains⟩ := hgain _ _ hst hg
    exact .ends (by rw [hrun, hsome, Option.map_some]) (by rw [hwide, hsome', Option.map_some])
      honward hgains

theorem Runs.of_eq {run wide run' wide' : State → Option (α × State)} {gain : α → State → Prop}
    (h : Runs markup text run wide s gain) (hrun : run' t = run s) (hwide : wide' t = wide s)
    (hscanner : t.scanner = s.scanner) : Runs markup text run' wide' t gain := by
  cases h with
  | never hmarkup hnone hnone' => exact .never hmarkup (hrun.trans hnone) (hwide.trans hnone')
  | ends hsome hsome' hst hg =>
    exact .ends (hrun.trans hsome) (hwide.trans hsome') (hst.of_scanner_eq hscanner rfl) hg

/-- What goes on from a state further on. -/
theorem Runs.of_front {run wide run' wide' : State → Option (α × State)} {gain : α → State → Prop}
    (h : Runs markup text run wide t gain) (hst : s.Onward text t) (hrun : run' s = run t)
    (hwide : wide' s = wide t) : Runs markup text run' wide' s gain := by
  cases h with
  | never hmarkup hnone hnone' => exact .never hmarkup (hrun.trans hnone) (hwide.trans hnone')
  | ends hsome hsome' htu hg =>
    exact .ends (hrun.trans hsome) (hwide.trans hsome') (hst.trans htu) hg

/-- What is known of a question is what it answers within any bounds. -/
theorem Runs.ask {a : α} (hs : s.Stands text)
    (hrun : ∀ rules context, r.run rules context s = some (a, s)) :
    Runs markup text (bounds.run r context) (wide.run r context) s fun b t => b = a ∧ t = s :=
  .ends (hrun _ _) (hrun _ _) hs.onward ⟨rfl, rfl⟩

theorem Bounds.run_bind (bounds : Bounds) (r : Reader α) (f : α → Reader β) (context : Context)
    (s : State) : bounds.run (r >>= f) context s =
      (bounds.run r context s).bind fun x => bounds.run (f x.1) context x.2 :=
  Reader.run_then _ _ s r f

theorem Runs.bind {gain : α → State → Prop} {gain' : β → State → Prop}
    (hr : Runs markup text (bounds.run r context) (wide.run r context) s gain)
    (hf : ∀ a t, bounds.run r context s = some (a, t) → s.Onward text t → gain a t →
      Runs markup text (bounds.run (f a) context) (wide.run (f a) context) t gain') :
    Runs markup text (bounds.run (r >>= f) context) (wide.run (r >>= f) context) s gain' := by
  cases hr with
  | never hmarkup hrun hwide =>
    exact .never hmarkup (by rw [Bounds.run_bind, hrun, Option.bind_none])
      (by rw [Bounds.run_bind, hwide, Option.bind_none])
  | ends hrun hwide hst hgain =>
    cases hf _ _ hrun hst hgain with
    | never hmarkup hrun' hwide' =>
      exact .never hmarkup (by rw [Bounds.run_bind, hrun, Option.bind_some, hrun'])
        (by rw [Bounds.run_bind, hwide, Option.bind_some, hwide'])
    | ends hrun' hwide' htu hgain' =>
      exact .ends (by rw [Bounds.run_bind, hrun, Option.bind_some, hrun'])
        (by rw [Bounds.run_bind, hwide, Option.bind_some, hwide']) (hst.trans htu) hgain'

theorem Ends.mono {need need' : List Char → State → Prop} {gain gain' : State → α → State → Prop}
    (h : Ends markup need cost r gain)
    (hneed : ∀ text s, s.Stands text → need' text s → need text s)
    (hgain : ∀ s a t, gain s a t → gain' s a t) : Ends markup need' cost r gain' := by
  intro text budget bounds wide hrules context s hc hs hn hle
  exact (h hrules hc hs (hneed text s hs hn) hle).mono fun a t _ => hgain s a t

instance (priority := low) haltsHere_of_halts [h : Halts markup cost r] : HaltsHere markup cost r :=
  ⟨h.ends.mono (fun _ _ _ _ => trivial) fun _ _ _ => id⟩

instance (priority := low) haltsHere_of_moves [h : Moves markup cost r] : HaltsHere markup cost r :=
  ⟨h.ends.mono (fun _ _ _ => id) fun _ _ _ _ => trivial⟩

instance (priority := low) stepsHere_of_moves [h : Moves markup cost q] : StepsHere markup cost q :=
  ⟨h.ends.mono (fun _ _ _ => id) fun _ _ _ h _ => h⟩

instance (priority := low) stepsHere_of_steps [h : Steps markup cost q] : StepsHere markup cost q :=
  ⟨h.ends.mono (fun _ _ _ _ => trivial) fun _ _ _ => id⟩

instance (priority := low) movesAt_of_moves {k : TokenKind} [hk : IsFalse (isEnd k)]
    [h : Moves markup cost r] : MovesAt markup k cost r where
  ends := h.ends.mono
    (fun _ _ hs hkind => hs.within_of_kind hkind (by rintro rfl; exact absurd hk.eq (by decide)))
    fun _ _ _ => id

instance (priority := low) staysOrMoves_of_asks [Asks r] [h : Halts markup cost r] :
    StaysOrMoves markup cost r where
  ends := by
    intro text budget bounds wide hrules context s hc hs _ hle
    refine (h.ends hrules hc hs trivial hle).of_run fun a t hrun _ _ => ?_
    obtain rfl := Asks.eq hrun
    exact Or.inl rfl

/-! ### One reader after the other -/

variable {need need' : List Char → State → Prop} {gain : State → α → State → Prop}
  {gain' : State → β → State → Prop}

/-- What reads on need not know whether a token has been consumed. -/
theorem Ends.bind {cond : α → List Char → State → Prop} {total : State → β → State → Prop}
    (hr : Ends markup need cost r gain) (hf : ∀ a, Ends markup (cond a) cost (f a) gain')
    (hcond : ∀ ⦃text s a t⦄, need text s → s.Onward text t → gain s a t → cond a text t)
    (htotal : ∀ ⦃text s a t b u⦄, s.Onward text t → gain s a t → t.Onward text u →
      gain' t b u → total s b u) :
    Ends markup need cost (r >>= f) total := by
  intro text budget bounds wide hrules context s hc hs hn hle
  refine (hr hrules hc hs hn hle).bind fun a t _ hst hgain => ?_
  have hleft := hst.left_le
  exact (hf a hrules hc hst.stands (hcond hn hst hgain) (by omega)).mono
    fun b u htu hgain' => htotal hst hgain htu hgain'

/-- Either a token has been consumed, and then everything can be read that is read next, or the token
at hand is where it was. -/
theorem Ends.bind_cases {cond : α → List Char → State → Prop} {total : State → β → State → Prop}
    (hr : Ends markup need cost r gain) (hfar : ∀ a, Halts markup 8 (f a))
    (hnear : ∀ a, Ends markup (cond a) cost (f a) gain')
    (hcond : ∀ ⦃text s a t⦄, need text s → s.Onward text t → ¬ s.Moved t → gain s a t →
      cond a text t)
    (htotal : ∀ ⦃s b u⦄, s.Moved u → total s b u)
    (htotal' : ∀ ⦃text s t b u⦄, s.Onward text t → gain' t b u → total s b u) :
    Ends markup need cost (r >>= f) total := by
  intro text budget bounds wide hrules context s hc hs hn hle
  refine (hr hrules hc hs hn hle).bind fun a t _ hst hgain => ?_
  by_cases hmoved : s.Moved t
  · have hleft := hst.left_lt hmoved
    exact ((hfar a).ends hrules hc hst.stands trivial (by omega)).mono
      fun b u htu _ => htotal (hmoved.of_onward htu)
  · have hleft := hst.left_le
    exact (hnear a hrules hc hst.stands (hcond hn hst hmoved hgain) (by omega)).mono
      fun b u _ hgain' => htotal' hst hgain'

/-- A question changes nothing. -/
theorem Ends.bind_asks [hq : Asks r] [hr : Halts markup cost r]
    (hf : ∀ a, Ends markup need cost (f a) gain') :
    Ends markup need cost (r >>= f) gain' := by
  intro text budget bounds wide hrules context s hc hs hn hle
  refine (hr.ends hrules hc hs trivial hle).bind fun a t hrun _ _ => ?_
  obtain rfl := hq.eq hrun
  exact hf a hrules hc hs hn hle

instance halts_bind [hr : Halts markup cost r] [hf : ∀ a, Halts markup cost (f a)] :
    Halts markup cost (r >>= f) :=
  ⟨hr.ends.bind (fun a => (hf a).ends) (fun _ _ _ _ _ _ _ => trivial)
    fun _ _ _ _ _ _ _ _ _ _ => trivial⟩

instance haltsHere_bind [hr : Halts markup cost r] [hfar : ∀ a, Halts markup 8 (f a)]
    [hf : ∀ a, HaltsHere markup cost (f a)] : HaltsHere markup cost (r >>= f) :=
  ⟨Ends.bind_cases (hr.ends.mono (fun _ _ _ (_ : Within _ _) => trivial) fun _ _ _ => id) hfar
    (fun a => (hf a).ends) (fun _ _ _ _ hn hst hmoved _ => hn.of_not_moved hst hmoved)
    (fun _ _ _ _ => trivial) fun _ _ _ _ _ _ _ => trivial⟩

instance haltsHere_bind_left [hr : HaltsHere markup cost r] [hf : ∀ a, Halts markup cost (f a)] :
    HaltsHere markup cost (r >>= f) :=
  ⟨hr.ends.bind (fun a => (hf a).ends) (fun _ _ _ _ _ _ _ => trivial)
    fun _ _ _ _ _ _ _ _ _ _ => trivial⟩

instance haltsHere_bind_asks [Asks r] [Halts markup cost r]
    [hf : ∀ a, HaltsHere markup cost (f a)] :
    HaltsHere markup cost (r >>= f) :=
  ⟨.bind_asks fun a => (hf a).ends⟩

instance moves_bind_left [hr : Moves markup cost r] [hf : ∀ a, Halts markup 8 (f a)] :
    Moves markup cost (r >>= f) :=
  ⟨hr.ends.bind_cases hf (fun _ => fun _ _ _ _ _ _ _ _ _ (h : False) _ => h.elim)
    (fun _ _ _ _ _ _ hmoved h => hmoved h) (fun _ _ _ h => h)
    fun _ _ _ _ _ hst h => hst.moved h⟩

instance moves_bind_right [hr : Halts markup cost r] [hfar : ∀ a, Halts markup 8 (f a)]
    [hf : ∀ a, Moves markup cost (f a)] : Moves markup cost (r >>= f) :=
  ⟨Ends.bind_cases (hr.ends.mono (fun _ _ _ (_ : Within _ _) => trivial) fun _ _ _ => id) hfar
    (fun a => (hf a).ends) (fun _ _ _ _ hn hst hmoved _ => hn.of_not_moved hst hmoved)
    (fun _ _ _ h => h) fun _ _ _ _ _ hst h => hst.moved h⟩

instance moves_bind_asks [Asks r] [Halts markup cost r] [hf : ∀ a, Moves markup cost (f a)] :
    Moves markup cost (r >>= f) :=
  ⟨.bind_asks fun a => (hf a).ends⟩

section

variable {k : TokenKind}

instance movesAt_bind_left [hr : MovesAt markup k cost r] [hf : ∀ a, Halts markup 8 (f a)] :
    MovesAt markup k cost (r >>= f) :=
  ⟨hr.ends.bind_cases hf (fun _ => fun _ _ _ _ _ _ _ _ _ (h : False) _ => h.elim)
    (fun _ _ _ _ _ _ hmoved h => hmoved h) (fun _ _ _ h => h)
    fun _ _ _ _ _ hst h => hst.moved h⟩

instance movesAt_bind_right [hr : StaysOrMoves markup cost r] [hfar : ∀ a, Halts markup 8 (f a)]
    [hf : ∀ a, MovesAt markup k cost (f a)] : MovesAt markup k cost (r >>= f) :=
  ⟨Ends.bind_cases
    (hr.ends.mono (fun _ s _ (_ : s.scanner.kind = k) => trivial) fun _ _ _ => id) hfar
    (fun a => (hf a).ends)
    (fun _ _ _ t hn _ hmoved h => show t.scanner.kind = k from (h.resolve_right hmoved) ▸ hn)
    (fun _ _ _ h => h) fun _ _ _ _ _ hst h => hst.moved h⟩

end

instance steps_bind {f : α → Reader Bool} [hr : Halts markup cost r]
    [hf : ∀ a, Steps markup cost (f a)] :
    Steps markup cost (r >>= f) :=
  ⟨hr.ends.bind (fun a => (hf a).ends) (fun _ _ _ _ _ _ _ => trivial)
    fun _ _ _ _ _ _ hst _ _ h hyes => hst.moved (h hyes)⟩

instance stepsHere_bind {f : α → Reader Bool} [hr : Halts markup cost r]
    [hfar : ∀ a, Halts markup 8 (f a)]
    [hf : ∀ a, StepsHere markup cost (f a)] : StepsHere markup cost (r >>= f) :=
  ⟨Ends.bind_cases (hr.ends.mono (fun _ _ _ (_ : Within _ _) => trivial) fun _ _ _ => id) hfar
    (fun a => (hf a).ends) (fun _ _ _ _ hn hst hmoved _ => hn.of_not_moved hst hmoved)
    (fun _ _ _ h _ => h) fun _ _ _ _ _ hst h hyes => hst.moved (h hyes)⟩

instance stepsHere_bind_asks {f : α → Reader Bool} [Asks r] [Halts markup cost r]
    [hf : ∀ a, StepsHere markup cost (f a)] : StepsHere markup cost (r >>= f) :=
  ⟨.bind_asks fun a => (hf a).ends⟩

/-! ### Conditions -/

section ite

variable {c : Prop} [Decidable c] {p p' : Reader Bool}

instance [Halts markup cost x] [Halts markup cost y] : Halts markup cost (if c then x else y) := by
  split <;> infer_instance

instance [HaltsHere markup cost x] [HaltsHere markup cost y] : HaltsHere markup cost
    (if c then x else y) := by
  split <;> infer_instance

instance [Moves markup cost x] [Moves markup cost y] : Moves markup cost (if c then x else y) := by
  split <;> infer_instance

instance [Steps markup cost p] [Steps markup cost p'] : Steps markup cost
    (if c then p else p') := by
  split <;> infer_instance

instance [StepsHere markup cost p] [StepsHere markup cost p'] : StepsHere markup cost
    (if c then p else p') := by
  split <;> infer_instance

end ite

/-- What follows a question may use what its answer tells about the token at hand. -/
theorem Ends.branch [hq : Asks q] [hq' : Halts markup cost q] {yes no : State → Prop}
    (hyes : ∀ {rules : Rules} {context : Context} {s t : State},
      q.run rules context s = some (true, t) → yes s)
    (hno : ∀ {rules : Rules} {context : Context} {s t : State},
      q.run rules context s = some (false, t) → no s)
    (hx : Ends markup (fun text s => need text s ∧ yes s) cost x gain)
    (hy : Ends markup (fun text s => need text s ∧ no s) cost y gain) :
    Ends markup need cost (q >>= fun b => if b = true then x else y) gain := by
  intro text budget bounds wide hrules context s hc hs hn hle
  refine (hq'.ends hrules hc hs trivial hle).bind fun b t hrun _ _ => ?_
  obtain rfl := hq.eq hrun
  cases b with
  | true => exact hx hrules hc hs ⟨hn, hyes hrun⟩ hle
  | false => exact hy hrules hc hs ⟨hn, hno hrun⟩ hle

/-- If a question is answered with yes, what follows it is at a token. -/
theorem Ends.branch_token [hq : AsksToken q] [Halts markup cost q]
    (hx : Ends markup (fun text s => need text s ∧ s.Within text) cost x gain)
    (hy : Ends markup need cost y gain) :
    Ends markup need cost (q >>= fun b => if b = true then x else y) gain :=
  .branch hq.atToken (fun _ => trivial)
    (hx.mono (fun _ _ hs hn => ⟨hn.1, hs.within_of_atToken hn.2⟩) fun _ _ _ => id)
    (hy.mono (fun _ _ _ => And.left) fun _ _ _ => id)

/-- If a question is answered with yes, what follows it is at a token of some kind. -/
theorem Ends.branch_finds {k : TokenKind} [hq : Finds k q] [Halts markup cost q]
    (hx : Ends markup (fun text s => need text s ∧ s.scanner.kind = k) cost x gain)
    (hy : Ends markup need cost y gain) :
    Ends markup need cost (q >>= fun b => if b = true then x else y) gain :=
  have := hq.asks
  .branch hq.kind_eq (fun _ => trivial) hx (hy.mono (fun _ _ _ => And.left) fun _ _ _ => id)

/-- If a question that the end of the file answers with yes is answered with no, what follows it is
at a token. -/
theorem Ends.branch_end [hq : EndsYes q] [Halts markup cost q] (hx : Ends markup need cost x gain)
    (hy : Ends markup (fun text s => need text s ∧ s.Within text) cost y gain) :
    Ends markup need cost (q >>= fun b => if b = true then x else y) gain :=
  have := hq.asks
  .branch (fun _ => trivial) hq.atToken (hx.mono (fun _ _ _ => And.left) fun _ _ _ => id)
    (hy.mono (fun _ _ hs hn => ⟨hn.1, hs.within_of_atToken hn.2⟩) fun _ _ _ => id)

/-- If a reader says yes, a token has been consumed, and then everything can be read. -/
theorem Ends.branch_steps [hq : Steps markup cost q] [hx : Halts markup 8 x]
    (hy : Ends markup (fun _ _ => True) cost y gain) (htotal : ∀ ⦃s a u⦄, s.Moved u → gain s a u)
    (htotal' : ∀ ⦃text s t a u⦄, s.Onward text t → gain t a u → gain s a u) :
    Ends markup (fun _ _ => True) cost (q >>= fun b => if b = true then x else y) gain := by
  intro text budget bounds wide hrules context s hc hs _ hle
  refine (hq.ends hrules hc hs trivial hle).bind fun b t _ hst hmoved => ?_
  cases b with
  | true =>
    have hleft := hst.left_lt (hmoved rfl)
    exact (hx.ends hrules hc hst.stands trivial (by omega)).mono
      fun a u htu _ => htotal ((hmoved rfl).of_onward htu)
  | false =>
    have hleft := hst.left_le
    exact (hy hrules hc hst.stands trivial (by omega)).mono fun a u _ h => htotal' hst h

/-- If a reader says yes, a token has been consumed; if it says no, the token at hand may still be the
same. -/
theorem Ends.branch_stepsHere [hq : Steps markup cost q] [hx : Halts markup 8 x]
    [hfar : Halts markup 8 y]
    (hy : Ends markup Within cost y gain) (htotal : ∀ ⦃s a u⦄, s.Moved u → gain s a u)
    (htotal' : ∀ ⦃text s t a u⦄, s.Onward text t → gain t a u → gain s a u) :
    Ends markup Within cost (q >>= fun b => if b = true then x else y) gain := by
  have hnear : ∀ b, Ends markup (fun text s => b = false ∧ s.Within text) cost
      (if b = true then x else y) gain := by
    intro b text budget bounds wide hrules context s hc hs hn hle
    obtain ⟨rfl, hwithin⟩ := hn
    exact hy hrules hc hs hwithin hle
  exact Ends.bind_cases (hq.ends.mono (fun _ _ _ (_ : Within _ _) => trivial) fun _ _ _ => id)
    (fun b => by cases b <;> infer_instance) hnear
    (fun _ _ _ _ hn hst hmoved h =>
      ⟨Bool.eq_false_iff.2 fun hyes => hmoved (h hyes), hn.of_not_moved hst hmoved⟩)
    htotal htotal'

instance halts_branch_finds {k : TokenKind} [Finds k q] [Halts markup cost q]
    [hx : MovesAt markup k cost x]
    [hy : Halts markup cost y] : Halts markup cost (q >>= fun b => if b = true then x else y) :=
  ⟨.branch_finds (hx.ends.mono (fun _ _ _ => And.right) fun _ _ _ _ => trivial) hy.ends⟩

instance halts_branch_token [AsksToken q] [Halts markup cost q] [hx : HaltsHere markup cost x]
    [hy : Halts markup cost y] : Halts markup cost (q >>= fun b => if b = true then x else y) :=
  ⟨.branch_token (hx.ends.mono (fun _ _ _ => And.right) fun _ _ _ => id) hy.ends⟩

instance halts_branch_end [EndsYes q] [Halts markup cost q] [hx : Halts markup cost x]
    [hy : HaltsHere markup cost y] :
    Halts markup cost (q >>= fun b => if b = true then x else y) :=
  ⟨.branch_end hx.ends (hy.ends.mono (fun _ _ _ => And.right) fun _ _ _ => id)⟩

instance halts_branch_steps [Steps markup cost q] [Halts markup 8 x] [hy : Halts markup cost y] :
    Halts markup cost (q >>= fun b => if b = true then x else y) :=
  ⟨.branch_steps hy.ends (fun _ _ _ _ => trivial) fun _ _ _ _ _ _ _ => trivial⟩

instance halts_branch_no [hq : SaysNo q] [hq' : Halts false cost q] [hy : Halts false cost y] :
    Halts false cost (q >>= fun b => if b = true then x else y) where
  ends := by
    intro text budget bounds wide hrules context s hc hs _ hle
    refine (hq'.ends hrules hc hs trivial hle).bind fun b t hrun hst _ => ?_
    have hc' : { context with size := bounds.steps }.mode.markup = false := hc
    obtain rfl := hq.eq hc' hrun
    have hleft := hst.left_le
    exact hy.ends hrules hc hst.stands trivial (by omega)

instance moves_branch_steps [Steps markup cost q] [Halts markup 8 x] [Halts markup 8 y]
    [hy : Moves markup cost y] :
    Moves markup cost (q >>= fun b => if b = true then x else y) :=
  ⟨.branch_stepsHere hy.ends (fun _ _ _ => id) fun _ _ _ _ _ hst h => hst.moved h⟩

/-- At a token of some kind, the question whether it is of this kind is answered with yes. -/
instance movesAt_branch_isAt {k : TokenKind} [hx : MovesAt markup k cost x] :
    MovesAt markup k cost (isAt k >>= fun b => if b = true then x else y) where
  ends := by
    intro text budget bounds wide hrules context s hc hs hn hle
    have hask (rules : Rules) (context : Context) :
        (isAt k).run rules context s = some (true, s) := by
      rw [run_isAt, decide_eq_true hn]
    refine (Runs.ask hs hask).bind fun b t _ _ hb => ?_
    obtain ⟨rfl, rfl⟩ := hb
    exact hx.ends hrules hc hs hn hle

instance staysOrMoves_branch_finds {k : TokenKind} [Finds k q] [Halts markup cost q]
    [hx : MovesAt markup k cost x] [hy : StaysOrMoves markup cost y] :
    StaysOrMoves markup cost (q >>= fun b => if b = true then x else y) :=
  ⟨.branch_finds (hx.ends.mono (fun _ _ _ => And.right) fun _ _ _ => Or.inr) hy.ends⟩

/-! ### Answers -/

section

variable {p p' : Reader Bool}

instance steps_branch_token [AsksToken q] [Halts markup cost q] [hp : StepsHere markup cost p]
    [hp' : Steps markup cost p'] : Steps markup cost (q >>= fun b => if b = true then p else p') :=
  ⟨.branch_token (hp.ends.mono (fun _ _ _ => And.right) fun _ _ _ => id) hp'.ends⟩

instance steps_branch_end [EndsYes q] [Halts markup cost q] [hp : Steps markup cost p]
    [hp' : StepsHere markup cost p'] : Steps markup cost (q >>= fun b => if b = true then p else p') :=
  ⟨.branch_end hp.ends (hp'.ends.mono (fun _ _ _ => And.right) fun _ _ _ => id)⟩

instance steps_branch_steps [Steps markup cost q] [Halts markup 8 p] [hp' : Steps markup cost p'] :
    Steps markup cost (q >>= fun b => if b = true then p else p') :=
  ⟨.branch_steps hp'.ends (fun _ _ _ h _ => h) fun _ _ _ _ _ hst h hyes => hst.moved (h hyes)⟩

instance stepsHere_branch_steps [Steps markup cost q] [Halts markup 8 p] [Halts markup 8 p']
    [hp' : StepsHere markup cost p'] :
    StepsHere markup cost (q >>= fun b => if b = true then p else p') :=
  ⟨.branch_stepsHere hp'.ends (fun _ _ _ h _ => h)
    fun _ _ _ _ _ hst h hyes => hst.moved (h hyes)⟩

instance steps_branch_finds {k : TokenKind} [Finds k q] [Halts markup cost q]
    [hp : MovesAt markup k cost p]
    [hp' : Steps markup cost p'] : Steps markup cost (q >>= fun b => if b = true then p else p') :=
  ⟨.branch_finds (hp.ends.mono (fun _ _ _ => And.right) fun _ _ _ h _ => h) hp'.ends⟩

end

instance halts_pure (a : α) : Halts markup cost (pure a : Reader α) where
  ends := fun _ _ _ _ _ _ _ _ hs _ _ => .ends rfl rfl hs.onward trivial

instance steps_pure_false : Steps markup cost (pure false) where
  ends := fun _ _ _ _ _ _ _ _ hs _ _ => .ends rfl rfl hs.onward fun h => by cases h

instance halts_and [Halts markup cost q] [Halts markup cost q'] : Halts markup cost
    (q <&&> q') := by
  rw [and_eq]
  infer_instance

instance halts_or [Halts markup cost q] [Halts markup cost q'] : Halts markup cost (q <||> q') := by
  rw [or_eq]
  infer_instance

instance steps_and_left [Steps markup cost q] [Halts markup 8 q'] : Steps markup cost
    (q <&&> q') := by
  rw [and_eq]
  infer_instance

instance steps_and_right [Halts markup cost q] [Steps markup cost q'] : Steps markup cost
    (q <&&> q') := by
  rw [and_eq]
  infer_instance

instance haltsHere_and [Asks q] [Halts markup cost q] [HaltsHere markup cost q'] :
    HaltsHere markup cost (q <&&> q') := by
  rw [and_eq]
  infer_instance

instance halts_and_token [AsksToken q] [Halts markup cost q] [HaltsHere markup cost q'] :
    Halts markup cost (q <&&> q') := by
  rw [and_eq]
  infer_instance

/-! ### Questions -/

instance halts_ask (question : Question α) : Halts markup cost (.ask question) where
  ends := fun _ _ _ _ _ _ _ _ hs _ _ => .ends rfl rfl hs.onward trivial

instance halts_kind : Halts markup cost kind :=
  halts_ask _

instance halts_onNewLine : Halts markup cost onNewLine :=
  halts_ask _

instance halts_isAssert : Halts markup cost isAssert :=
  halts_ask _

instance halts_mode : Halts markup cost mode where
  ends := fun _ _ _ _ _ _ _ _ hs _ _ => .ends rfl rfl hs.onward trivial

instance halts_isAt (k : TokenKind) : Halts markup cost (isAt k) := by unfold isAt; infer_instance

instance halts_isAtAny (ks : List TokenKind) : Halts markup cost (isAtAny ks) := by
  unfold isAtAny
  infer_instance

instance halts_onSameLine : Halts markup cost onSameLine := by unfold onSameLine; infer_instance

instance halts_atIdentifier : Halts markup cost atIdentifier := by
  unfold atIdentifier
  infer_instance

instance halts_atWord : Halts markup cost atWord := by unfold atWord; infer_instance

instance halts_atStatementEnd : Halts markup cost atStatementEnd := by
  unfold atStatementEnd
  infer_instance

instance halts_opposite [Halts markup cost q] : Halts markup cost (opposite q) := by
  unfold opposite
  infer_instance

instance halts_markupAllowed : Halts markup cost markupAllowed := by
  unfold markupAllowed
  infer_instance

instance halts_inForbidden : Halts markup cost inForbidden := by unfold inForbidden; infer_instance

instance halts_conditionalForbidden : Halts markup cost conditionalForbidden := by
  unfold conditionalForbidden
  infer_instance

/-- Lists of tokens with the end of the file. -/
class HasEnd (ks : List TokenKind) : Prop where
  mem : .endOfFile ∈ ks

instance hasEnd_head (ks : List TokenKind) : HasEnd (.endOfFile :: ks) := ⟨List.mem_cons_self⟩

instance hasEnd_tail {k : TokenKind} {ks : List TokenKind} [h : HasEnd ks] : HasEnd (k :: ks) :=
  ⟨List.mem_cons_of_mem k h.mem⟩

instance endsYes_isAtAny {ks : List TokenKind} [h : HasEnd ks] : EndsYes (isAtAny ks) where
  asks := inferInstance
  atToken {rules context s t} hrun := by
    obtain ⟨k, t', hk, hno⟩ := run_bind_eq_some.1 hrun
    cases hk
    obtain ⟨hno, -⟩ := run_pure_eq_some.1 hno
    intro hend
    have hmem : ks.contains s.scanner.kind = true := by simpa [hend] using h.mem
    exact absurd (hno.trans hmem) (by decide)

instance asksToken_opposite [h : EndsYes q] : AsksToken (opposite q) where
  asks := by
    have := h.asks
    infer_instance
  atToken hrun := by
    obtain ⟨b, t, hq, hyes⟩ := run_bind_eq_some.1 hrun
    obtain rfl : b = false := by simpa using (run_pure_eq_some.1 hyes).1
    exact h.atToken hq

instance finds_isAt (k : TokenKind) : Finds k (isAt k) where
  asks := by unfold isAt; infer_instance
  kind_eq hrun := by
    obtain ⟨k', t, hk, hyes⟩ := run_bind_eq_some.1 hrun
    cases hk
    exact of_decide_eq_true (run_pure_eq_some.1 hyes).1.symm

instance finds_and_left {k : TokenKind} [hq : Finds k q] [Asks q'] : Finds k (q <&&> q') where
  asks := by
    have := hq.asks
    infer_instance
  kind_eq hrun := by
    rw [and_eq] at hrun
    obtain ⟨b, t, hb, hf⟩ := run_bind_eq_some.1 hrun
    cases b with
    | true => exact hq.kind_eq hb
    | false => cases (run_pure_eq_some.1 hf).1

instance finds_and_right {k : TokenKind} [hq : Asks q] [hq' : Finds k q'] :
    Finds k (q <&&> q') where
  asks := by
    have := hq'.asks
    infer_instance
  kind_eq hrun := by
    rw [and_eq] at hrun
    obtain ⟨b, t, hb, hf⟩ := run_bind_eq_some.1 hrun
    obtain rfl := hq.eq hb
    cases b with
    | true => exact hq'.kind_eq hf
    | false => cases (run_pure_eq_some.1 hf).1

instance saysNo_markupAllowed : SaysNo markupAllowed where
  eq hmarkup hrun := by
    cases hrun
    exact hmarkup

instance saysNo_and_right [hq' : SaysNo q'] : SaysNo (q <&&> q') where
  eq hmarkup hrun := by
    rw [and_eq] at hrun
    obtain ⟨b, t, -, hf⟩ := run_bind_eq_some.1 hrun
    cases b with
    | true => exact hq'.eq hmarkup hf
    | false => exact (run_pure_eq_some.1 hf).1

/-! ### Cases by the kind of the token at hand -/

section

variable {f : TokenKind → Reader α}

theorem Ends.ofKind
    (h : ∀ k, Ends markup (fun text s => need text s ∧ s.scanner.kind = k) cost (f k) gain) :
    Ends markup need cost (kind >>= f) gain := by
  intro text budget bounds wide hrules context s hc hs hn hle
  refine (Runs.ask hs fun rules context => run_kind rules context s).bind fun k t _ _ hk => ?_
  obtain ⟨rfl, rfl⟩ := hk
  exact h _ hrules hc hs ⟨hn, rfl⟩ hle

theorem Halts.ofKind
    (h : ∀ k, Halts markup cost (f k) ∨ k ≠ .endOfFile ∧ HaltsHere markup cost (f k)) :
    Halts markup cost (kind >>= f) where
  ends := .ofKind fun k => by
    rcases h k with h | ⟨hk, h⟩
    · exact h.ends.mono (fun _ _ _ _ => trivial) fun _ _ _ => id
    · exact h.ends.mono (fun _ s hs hkind => hs.within_of_kind hkind.2 hk) fun _ _ _ => id

theorem Moves.ofKind (h : ∀ k, Moves markup cost (f k)) : Moves markup cost (kind >>= f) :=
  ⟨.ofKind fun k => (h k).ends.mono (fun _ _ _ => And.left) fun _ _ _ => id⟩

theorem Steps.ofKind {f : TokenKind → Reader Bool}
    (h : ∀ k, Steps markup cost (f k) ∨ MovesAt markup k cost (f k) ∨
      k ≠ .endOfFile ∧ StepsHere markup cost (f k)) : Steps markup cost (kind >>= f) where
  ends := .ofKind fun k => by
    rcases h k with h | h | ⟨hk, h⟩
    · exact h.ends.mono (fun _ _ _ _ => trivial) fun _ _ _ => id
    · exact h.ends.mono (fun _ _ _ => And.right) fun _ _ _ h _ => h
    · exact h.ends.mono (fun _ s hs hkind => hs.within_of_kind hkind.2 hk) fun _ _ _ => id

theorem StepsOn.ofKind {f : TokenKind → Reader (Option α)}
    (h : ∀ k, StepsOn markup cost (f k) ∨ k ≠ .endOfFile ∧ Moves markup cost (f k)) :
    StepsOn markup cost (kind >>= f) where
  ends := .ofKind fun k => by
    rcases h k with h | ⟨hk, h⟩
    · exact h.ends.mono (fun _ _ _ _ => trivial) fun _ _ _ => id
    · exact h.ends.mono (fun _ s hs hkind => hs.within_of_kind hkind.2 hk) fun _ _ _ h _ => h

end

/-! ### Words -/

/-- A word that leaves the scanner where it is. -/
theorem Ends.of_scanner_eq (a : State → α) (g : Bool → State → State)
    (hrun : ∀ rules context s, r.run rules context s = some (a s, g context.speculative s))
    (hscanner : ∀ speculative s, (g speculative s).scanner = s.scanner) :
    Ends markup need cost r fun _ _ _ => True :=
  fun _ _ _ _ _ _ s _ hs _ _ =>
    .ends (hrun _ _ s) (hrun _ _ s) (hs.onward.of_scanner_eq rfl (hscanner _ s)) trivial

instance halts_advance_by (scan : Scan) : Halts markup cost (.advance scan) where
  ends := fun _ _ _ _ _ _ _ _ hs _ _ => .ends rfl rfl (hs.onward_advance scan) trivial

instance moves_advance_by (scan : Scan) : Moves markup cost (.advance scan) where
  ends := fun _ _ _ _ _ _ _ _ hs hn _ =>
    .ends rfl rfl (hs.onward_advance scan) (hs.moved_advance hn scan)

instance halts_advance : Halts markup cost advance :=
  halts_advance_by .code

instance moves_advance : Moves markup cost advance :=
  moves_advance_by .code

instance halts_rescan (scan : Rescan) : Halts markup cost (.rescan scan) where
  ends := fun _ _ _ _ _ _ _ _ hs _ _ => .ends rfl rfl (hs.onward_rescan scan) trivial

instance halts_report (problem : SyntaxProblem) : Halts markup cost (report problem) :=
  ⟨.of_scanner_eq (fun _ => ()) (fun speculative s => s.report speculative problem)
    (fun _ _ _ => rfl) fun speculative s => (State.scanner_report speculative problem s).1⟩

theorem scanner_advance_addPiece (s : State) (piece : Tree) (scan : Scan) :
    ((s.addPiece piece).advance scan).scanner = (s.advance scan).scanner :=
  rfl

instance halts_leaf (k : NodeKind) (scan : Scan) : Halts markup cost (.leaf k scan) where
  ends := fun _ _ _ _ _ _ s _ hs _ _ =>
    .ends rfl rfl ((hs.onward_advance scan).of_scanner_eq rfl (scanner_advance_addPiece s _ scan))
      trivial

instance moves_leaf (k : NodeKind) (scan : Scan) : Moves markup cost (.leaf k scan) where
  ends := fun _ _ _ _ _ _ s _ hs hn _ =>
    .ends rfl rfl ((hs.onward_advance scan).of_scanner_eq rfl (scanner_advance_addPiece s _ scan))
      (hs.moved_advance hn scan)

instance halts_tokenNodeAs (k : NodeKind) : Halts markup cost (tokenNodeAs k) :=
  halts_leaf k .code

instance moves_tokenNodeAs (k : NodeKind) : Moves markup cost (tokenNodeAs k) :=
  moves_leaf k .code

instance halts_tokenNode : Halts markup cost tokenNode := by unfold tokenNode; infer_instance

instance moves_tokenNode : Moves markup cost tokenNode := by unfold tokenNode; infer_instance

instance halts_emptyName : Halts markup cost .emptyName :=
  ⟨.of_scanner_eq (fun _ => ())
    (fun _ s => s.addPiece (.leaf (.token .identifier) s.position s.position)) (fun _ _ _ => rfl)
    fun _ _ => rfl⟩

instance halts_wrap (k : NodeKind) : Halts markup cost (wrap k) :=
  ⟨.of_scanner_eq (fun _ => ()) (fun _ s => s.wrap k) (fun _ _ _ => rfl) fun _ _ => rfl⟩

instance halts_hasPieces : Halts markup cost .hasPieces :=
  ⟨.of_scanner_eq (fun s => !s.pieces.isEmpty) (fun _ s => s) (fun _ _ _ => rfl) fun _ _ => rfl⟩

instance halts_dropPieces : Halts markup cost .dropPieces :=
  ⟨.of_scanner_eq (fun _ => ()) (fun _ s => { s with pieces := [] }) (fun _ _ _ => rfl)
    fun _ _ => rfl⟩

/-- A construct of its own moves the scanner as its inside does. -/
theorem Ends.scope (h : Ends markup need' cost r gain)
    (hneed : ∀ text s, need text s → need' text s.openScope)
    {total : State → α → State → Prop}
    (htotal : ∀ s a t, gain s.openScope a t → total s a (t.closeScope s)) :
    Ends markup need cost (scope r) total := by
  intro text budget bounds wide hrules context s hc hs hn hle
  exact (h hrules hc (hs.of_scanner_eq (t := s.openScope) rfl) (hneed text s hn) hle).map
    (run_scope _ _ s r) (run_scope _ _ s r)
    fun a t hst hg => ⟨hst.of_scanner_eq rfl rfl, htotal s a t hg⟩

instance halts_scope [h : Halts markup cost r] : Halts markup cost (scope r) :=
  ⟨h.ends.scope (fun _ _ => id) fun _ _ _ => id⟩

instance haltsHere_scope [h : HaltsHere markup cost r] : HaltsHere markup cost (scope r) :=
  ⟨h.ends.scope (fun _ _ => id) fun _ _ _ => id⟩

instance moves_scope [h : Moves markup cost r] : Moves markup cost (scope r) :=
  ⟨h.ends.scope (fun _ _ => id) fun _ _ _ => id⟩

instance movesAt_scope {k : TokenKind} [h : MovesAt markup k cost r] : MovesAt markup k cost
    (scope r) :=
  ⟨h.ends.scope (fun _ _ => id) fun _ _ _ => id⟩

instance steps_scope [h : Steps markup cost q] : Steps markup cost (scope q) :=
  ⟨h.ends.scope (fun _ _ => id) fun _ _ _ => id⟩

instance steps_moves {r : Reader Unit} [h : Halts markup cost r] : Steps markup cost
    (.moves r) where
  ends := by
    intro text budget bounds wide hrules context s hc hs _ hle
    refine (h.ends hrules hc hs trivial hle).map (Reader.run_moves _ _ s r)
      (Reader.run_moves _ _ s r) fun _ t hst _ => ⟨hst, fun hyes => ?_⟩
    have hne := of_decide_eq_true hyes
    exact lt_of_le_of_ne hst.position_le (Ne.symm hne)

instance halts_withoutError {r : Reader Unit} [h : Halts markup cost r] :
    Halts markup cost (.withoutError r) where
  ends := by
    intro text budget bounds wide hrules context s hc hs _ hle
    exact (h.ends hrules hc hs trivial hle).map (Reader.run_withoutError _ _ s r)
      (Reader.run_withoutError _ _ s r) fun _ _ hst _ => ⟨hst, trivial⟩

theorem Ends.lookAhead (h : Ends markup need cost r gain) :
    Ends markup need cost (lookAhead r) fun _ _ _ => True := by
  intro text budget bounds wide hrules context s hc hs hn hle
  have hc' : { context with speculative := true }.mode.markup = markup := hc
  exact (h hrules hc' hs hn hle).map (run_lookAhead _ _ s r) (run_lookAhead _ _ s r)
    fun _ _ _ _ => ⟨hs.onward, trivial⟩

instance halts_lookAhead [h : Halts markup cost r] : Halts markup cost (lookAhead r) :=
  ⟨h.ends.lookAhead⟩

instance haltsHere_lookAhead [h : HaltsHere markup cost r] : HaltsHere markup cost (lookAhead r) :=
  ⟨h.ends.lookAhead⟩

theorem Ends.attempt {gain : State → Bool → State → Prop} (h : Ends markup need cost q gain)
    (hno : ∀ s, gain s false s) : Ends markup need cost (attempt q) gain := by
  intro text budget bounds wide hrules context s hc hs hn hle
  have hc' : { context with speculative := true }.mode.markup = markup := hc
  refine (h hrules hc' hs hn hle).map (run_attempt _ _ s q) (run_attempt _ _ s q)
    fun yes t hst hg => ?_
  dsimp only
  split
  next hkeep =>
    obtain rfl : yes = true := (Bool.and_eq_true_iff.1 hkeep).1
    exact ⟨hst, hg⟩
  next => exact ⟨hs.onward, hno s⟩

instance halts_attempt [h : Halts markup cost q] : Halts markup cost (attempt q) :=
  ⟨h.ends.attempt fun _ => trivial⟩

instance steps_attempt [h : Steps markup cost q] : Steps markup cost (attempt q) :=
  ⟨h.ends.attempt fun _ h => by cases h⟩

/-- Modes of the same dialect make no difference. -/
theorem halts_within {change : Mode → Mode} (hchange : ∀ mode, (change mode).markup = mode.markup)
    [h : Halts markup cost r] : Halts markup cost (.within change r) where
  ends := by
    intro text budget bounds wide hrules context s hc hs hn hle
    have hc' : { context with mode := change context.mode }.mode.markup = markup :=
      (hchange _).trans hc
    exact (h.ends hrules hc' hs hn hle).of_eq rfl rfl rfl

/-- Beyond the greatest depth of nesting, something else is read. -/
theorem Runs.nested {beyond inner : Reader Unit} {gain : Unit → State → Prop}
    (hbeyond : maxDepth ≤ context.depth → Runs markup text (bounds.run beyond context)
      (wide.run beyond context) (s.report context.speculative .nestingTooDeep) gain)
    (hinner : context.depth < maxDepth →
      Runs markup text (bounds.run inner { context with depth := context.depth + 1 })
        (wide.run inner { context with depth := context.depth + 1 }) s gain) :
    Runs markup text (bounds.run (nested beyond inner) context)
      (wide.run (nested beyond inner) context) s gain := by
  have hscanner := (State.scanner_report context.speculative .nestingTooDeep s).1
  by_cases hdepth : maxDepth ≤ context.depth
  · exact (hbeyond hdepth).of_eq (if_pos hdepth) (if_pos hdepth) hscanner.symm
  · exact (hinner (Nat.lt_of_not_le hdepth)).of_eq (if_neg hdepth) (if_neg hdepth) rfl

theorem Ends.nested {beyond inner : Reader Unit} [hb : Halts markup cost beyond]
    (hi : Ends markup need cost inner fun _ _ _ => True) :
    Ends markup need cost (nested beyond inner) fun _ _ _ => True := by
  intro text budget bounds wide hrules context s hc hs hn hle
  have hscanner := (State.scanner_report context.speculative .nestingTooDeep s).1
  have hleft : (s.report context.speculative .nestingTooDeep).left text = s.left text := by
    simp only [State.left, State.position, hscanner]
  have hc' : { context with depth := context.depth + 1 }.mode.markup = markup := hc
  exact Runs.nested
    (fun _ => hb.ends hrules hc (hs.of_scanner_eq hscanner) trivial (hleft ▸ hle))
    fun _ => hi hrules hc' hs hn hle

instance halts_nested {beyond inner : Reader Unit} [Halts markup cost beyond]
    [hi : Halts markup cost inner] : Halts markup cost (nested beyond inner) :=
  ⟨hi.ends.nested⟩

instance haltsHere_nested {beyond inner : Reader Unit} [Halts markup cost beyond]
    [hi : HaltsHere markup cost inner] : HaltsHere markup cost (nested beyond inner) :=
  ⟨hi.ends.nested⟩

instance isFor_true {construct : Construct} : construct.IsFor true :=
  ⟨fun _ _ => rfl⟩

instance isFor_newExpression : Construct.newExpression.IsFor markup :=
  ⟨fun _ h => by cases h⟩

instance (priority := low) isFor_of_startsAtToken {construct : Construct}
    [h : IsFalse construct.startsAtToken] : construct.IsFor markup :=
  ⟨by rintro amongChildren rfl; cases h.eq⟩

instance haltsHere_call {construct : Construct} [h : construct.Below cost]
    [hfor : construct.IsFor markup] : HaltsHere markup cost (call construct) where
  ends := fun _ _ _ _ hrules _ _ hc hs hn hle =>
    hrules.calls hfor hc hs (fun _ => hn) (lt_of_lt_of_le (Nat.add_lt_add_left h.lt _) hle)

instance halts_call {construct : Construct} [h : construct.Below cost]
    [hstart : IsFalse construct.startsAtToken] : Halts markup cost (call construct) where
  ends := fun _ _ _ _ hrules _ _ hc hs _ hle =>
    hrules.calls isFor_of_startsAtToken hc hs (fun heq => absurd hstart.eq (by simp [heq]))
      (lt_of_lt_of_le (Nat.add_lt_add_left h.lt _) hle)

instance below_eight {construct : Construct} : construct.Below 8 :=
  ⟨by cases construct <;> simp [Construct.level]⟩

/-! ### Repetition -/

/-- Each step but the last one consumes a token, so there are no more steps than bytes left. -/
theorem runs_iterate {step : Reader (Option α)} [h : StepsOn markup cost step] {budget : ℕ}
    (hrules : Bounds.Suffice markup text budget bounds wide) (hc : context.mode.markup = markup)
    (k l : ℕ) (hs : s.Stands text) (hk : s.left text < k) (hl : s.left text < l)
    (hle : 8 * s.left text + cost ≤ budget) :
    Runs markup text (iterate (bounds.run step) k context) (iterate (wide.run step) l context) s
      fun _ _ => True := by
  induction k generalizing s l with
  | zero => exact absurd hk (Nat.not_lt_zero _)
  | succ k ih =>
    obtain ⟨l, rfl⟩ := Nat.exists_eq_succ_of_ne_zero (Nat.ne_zero_of_lt hl)
    cases h.ends hrules hc hs trivial hle with
    | never hmarkup hrun hwide =>
      exact .never hmarkup (by simp only [iterate, hrun]) (by simp only [iterate, hwide])
    | @ends a t hrun hwide hst hmoved =>
      cases a with
      | some a =>
        exact .ends (a := a) (by simp only [iterate, hrun]) (by simp only [iterate, hwide]) hst
          trivial
      | none =>
        have hlt := hst.left_lt (hmoved rfl)
        exact (ih l hst.stands (by omega) (by omega) (by omega)).of_front hst
          (by simp only [iterate, hrun]) (by simp only [iterate, hwide])

theorem iterate_congr {f g : Action (Option α)} {context' : Context}
    (h : ∀ s, f context s = g context' s) (k : ℕ) (s : State) :
    iterate f k context s = iterate g k context' s := by
  induction k generalizing s with
  | zero => rfl
  | succ k ih => simp only [iterate, h, ih]

/-- The number of steps makes no difference to a single step. -/
theorem Bounds.run_loop (bounds : Bounds) (step : Reader (Option α)) (context : Context)
    (s : State) :
    bounds.run (.loop step) context s = iterate (bounds.run step) (bounds.steps + 2) context s := by
  have hstep (u : State) : step.run (rulesWithin bounds.depth)
      { context with size := bounds.steps } u = bounds.run step context u := rfl
  exact iterate_congr hstep (bounds.steps + 2) s

instance halts_loop {step : Reader (Option α)} [StepsOn markup cost step] :
    Halts markup cost (.loop step) where
  ends := by
    intro text budget bounds wide hrules context s hc hs _ hle
    have hleft : s.left text ≤ byteLength text := Nat.sub_le _ _
    have hsteps := hrules.steps_le
    have hsteps' := hrules.wide_steps_le
    exact (runs_iterate hrules hc (bounds.steps + 2) (wide.steps + 2) hs (by omega) (by omega)
      hle).of_eq (bounds.run_loop step context s) (wide.run_loop step context s) rfl

instance stepsOn_pure_some (a : α) : StepsOn markup cost (pure (some a)) where
  ends := fun _ _ _ _ _ _ _ _ hs _ _ => .ends rfl rfl hs.onward fun h => by cases h

instance stepsOn_map_some [h : Halts markup cost r] : StepsOn markup cost (some <$> r) where
  ends := by
    intro text budget bounds wide hrules context s hc hs _ hle
    exact (h.ends hrules hc hs trivial hle).bind fun a t _ hst _ =>
      .ends rfl rfl hst.stands.onward fun h => by cases h

instance halts_repeatWhile [h : Steps markup cost q] : Halts markup cost (repeatWhile q) := by
  have : StepsOn markup cost (do if ← q then return none else return some ()) := by
    refine ⟨fun text budget bounds wide hrules context s hc hs _ hle => ?_⟩
    refine (h.ends hrules hc hs trivial hle).bind fun b t _ hst hmoved => ?_
    cases b with
    | true => exact .ends rfl rfl hst.stands.onward fun _ => hmoved rfl
    | false => exact .ends rfl rfl hst.stands.onward fun h => by cases h
  exact halts_loop

/-! ### Combinations -/

section

variable {x : Reader Unit}

instance halts_optionally [Halts markup cost q] [Halts markup cost x] : Halts markup cost
    (optionally q x) := by
  unfold optionally
  infer_instance

instance halts_optionally_token [AsksToken q] [Halts markup cost q] [HaltsHere markup cost x] :
    Halts markup cost (optionally q x) := by
  unfold optionally
  infer_instance

instance halts_optionally_steps [Steps markup cost q] [Halts markup 8 x] : Halts markup cost
    (optionally q x) := by
  unfold optionally
  infer_instance

instance halts_optionally_finds {k : TokenKind} [Finds k q] [Halts markup cost q]
    [MovesAt markup k cost x] :
    Halts markup cost (optionally q x) := by
  unfold optionally
  infer_instance

instance staysOrMoves_optionally {k : TokenKind} [MovesAt markup k cost x] :
    StaysOrMoves markup cost (optionally (isAt k) x) := by
  unfold optionally
  infer_instance

instance movesAt_optionally {k : TokenKind} [MovesAt markup k cost q] [Halts markup 8 x] :
    MovesAt markup k cost (optionally q x) := by
  unfold optionally
  infer_instance

instance movesAt_optionally_isAt {k : TokenKind} [MovesAt markup k cost x] :
    MovesAt markup k cost (optionally (isAt k) x) := by
  unfold optionally
  infer_instance

instance halts_node {k : NodeKind} [Halts markup cost x] : Halts markup cost (node k x) := by
  unfold node
  infer_instance

instance moves_node {k : NodeKind} [Moves markup cost x] : Moves markup cost (node k x) := by
  unfold node
  infer_instance

instance halts_map {g : α → β} [Halts markup cost r] : Halts markup cost (g <$> r) :=
  inferInstanceAs (Halts markup cost (r >>= fun a => pure (g a)))

instance halts_repeatedly_token [AsksToken q] [Halts markup cost q] [Moves markup cost x] :
    Halts markup cost (repeatedly q x) := by
  unfold repeatedly
  infer_instance

instance halts_repeatedly_steps [Steps markup cost q] [Halts markup 8 x] : Halts markup cost
    (repeatedly q x) := by
  unfold repeatedly
  infer_instance

instance halts_discard [Halts markup cost r] : Halts markup cost (discard r) :=
  inferInstanceAs (Halts markup cost (r >>= fun _ => pure ()))

end

section

variable {k : TokenKind} [IsFalse (isEnd k)] {ks : List TokenKind} {x : Reader Unit}

instance halts_accept? : Halts markup cost (accept? k) := by unfold accept?; infer_instance

instance steps_accept? : Steps markup cost (accept? k) := by unfold accept?; infer_instance

instance movesAt_accept? : MovesAt markup k cost (accept? k) := by unfold accept?; infer_instance

instance staysOrMoves_accept? : StaysOrMoves markup cost (accept? k) := by
  unfold accept?
  infer_instance

instance halts_accept : Halts markup cost (accept k) := by unfold accept; infer_instance

instance halts_expect? : Halts markup cost (expect? k) := by unfold expect?; infer_instance

instance steps_expect? : Steps markup cost (expect? k) := by unfold expect?; infer_instance

instance movesAt_expect? : MovesAt markup k cost (expect? k) := by unfold expect?; infer_instance

instance halts_expect : Halts markup cost (expect k) := by unfold expect; infer_instance

instance movesAt_expect : MovesAt markup k cost (expect k) := by unfold expect; infer_instance

instance halts_acceptAny : Halts markup cost (acceptAny ks) := by unfold acceptAny; infer_instance

instance halts_semicolon : Halts markup cost semicolon := by unfold semicolon; infer_instance

instance halts_advanceOnLine : Halts markup cost advanceOnLine := by
  unfold advanceOnLine
  infer_instance

instance moves_advanceOnLine : Moves markup cost advanceOnLine := by
  unfold advanceOnLine
  infer_instance

instance halts_nextIsAny : Halts markup cost (nextIsAny ks) := by unfold nextIsAny; infer_instance

instance halts_tokenNodeIf? [Halts markup cost q] : Halts markup cost (tokenNodeIf? q) := by
  unfold tokenNodeIf?
  infer_instance

instance halts_missing {problem : SyntaxProblem} : Halts markup cost (missing problem) := by
  unfold missing
  infer_instance

instance halts_identifier : Halts markup cost identifier := by unfold identifier; infer_instance

instance halts_identifierName : Halts markup cost identifierName := by
  unfold identifierName
  infer_instance

instance halts_moduleString : Halts markup cost moduleString := by
  unfold moduleString
  infer_instance

instance halts_commaSeparated [Halts markup cost x] : Halts markup cost (commaSeparated k x) := by
  unfold commaSeparated
  infer_instance

instance halts_commaSeparatedWithHoles [Halts markup cost x] :
    Halts markup cost (commaSeparatedWithHoles k x) := by
  unfold commaSeparatedWithHoles
  infer_instance

instance halts_commaSeparatedMany [Halts markup cost x] : Halts markup cost
    (commaSeparatedMany x) := by
  unfold commaSeparatedMany
  infer_instance

instance steps_keptItem [Halts markup cost x] : Steps markup cost (keptItem x) := by
  unfold keptItem
  infer_instance

instance halts_itemsUntil {problem : SyntaxProblem} [HasEnd ks] [Halts markup cost x] :
    Halts markup cost (itemsUntil ks problem x) := by
  unfold itemsUntil
  infer_instance

instance halts_allowIn [Halts markup cost x] : Halts markup cost (allowIn x) :=
  halts_within fun _ => rfl

instance halts_forbidIn [Halts markup cost x] : Halts markup cost (forbidIn x) :=
  halts_within fun _ => rfl

instance halts_allowConditional [Halts markup cost x] : Halts markup cost (allowConditional x) :=
  halts_within fun _ => rfl

instance halts_forbidConditional [Halts markup cost x] : Halts markup cost (forbidConditional x) :=
  halts_within fun _ => rfl

instance halts_allowAll [Halts markup cost x] : Halts markup cost (allowAll x) := by
  unfold allowAll
  infer_instance

end

end

end ExpectError.Grammar
