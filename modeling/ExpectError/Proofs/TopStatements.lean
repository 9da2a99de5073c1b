import ExpectError.Proofs.StatementEnds
import ExpectError.Proofs.StatementStarts
import ExpectError.Proofs.TokenBreaks

/-!
# The statements of a whole text

The statements of a text follow one another. Each is one node that starts with the token at which its
reading began, and behind the statement before it nothing else has been consumed. So if the token in
front of a statement is a keyword that has to share its line with what follows, that statement is not
on the keyword's line: nothing follows a statement that ends so but a line break, a closing brace or
the end of the text, and no statement begins with these.

* `itemsUntil_invariant`: what each item of a list keeps;
* `State.Apart`: the statements that have been read are apart from such keywords;
* `SourceFile.breaksBetween_of_child`: the statements of a text.
-/

namespace ExpectError

open Text

namespace Grammar

variable {α : Type} {rules : Rules} {context : Context} {s t : State} {text : List Char}

/-! ### Items -/

theorem isAtAny_of_run {ks : List TokenKind} {b : Bool}
    (hrun : (isAtAny ks).run rules context s = some (b, t)) :
    t = s ∧ (b = true ↔ s.scanner.kind ∈ ks) := by
  obtain ⟨_, u, hkind, hcontains⟩ := run_bind_eq_some.1 hrun
  cases hkind
  obtain ⟨rfl, rfl⟩ := run_pure_eq_some.1 hcontains
  exact ⟨rfl, List.contains_iff_mem⟩

/-- An item that is kept is read as a construct of its own. -/
theorem run_of_keptItem {item : Reader Unit}
    (hrun : (keptItem item).run rules context s = some (true, t)) :
    ∃ u, item.run rules context s.openScope = some ((), u) ∧ t = u.closeScope s := by
  obtain ⟨u, hscope, rfl⟩ := run_scope_eq_some.1 hrun
  obtain ⟨moved, v, hmoves, hrest⟩ := run_bind_eq_some.1 hscope
  cases moved with
  | true =>
    obtain ⟨-, rfl⟩ := run_pure_eq_some.1 hrest
    exact ⟨u, (run_moves_eq_some.1 hmoves).1, rfl⟩
  | false =>
    obtain ⟨_, w, -, hpure⟩ := run_bind_eq_some.1 hrest
    cases (run_pure_eq_some.1 hpure).1

/-- What each item keeps, a list of items keeps that is read without errors. -/
theorem itemsUntil_invariant {p : State → Prop} {stops : List TokenKind} {problem : SyntaxProblem}
    {item : Reader Unit} (hrules : ∀ construct, Grows (rules construct))
    (hitem : ∀ ⦃s t⦄, p s → s.scanner.kind ∉ stops →
      item.run rules context s.openScope = some ((), t) → t.errors = [] → p (t.closeScope s))
    (hs : p s) (hrun : (itemsUntil stops problem item).run rules context s = some ((), t))
    (ht : t.errors = []) : p t := by
  refine iterate_clean_induction (grows_run hrules _) (fun s b t hs hstep ht => ?_) _ hs hrun ht
  obtain ⟨again, u, hagain, hstop⟩ := run_bind_eq_some.1 hstep
  obtain rfl : t = u := by
    split at hstop <;> exact (run_pure_eq_some.1 hstop).2
  obtain ⟨found, v, hfound, hrest⟩ := run_bind_eq_some.1 hagain
  obtain ⟨rfl, hstops⟩ := isAtAny_of_run hfound
  cases found with
  | true =>
    obtain ⟨-, rfl⟩ := run_pure_eq_some.1 hrest
    exact hs
  | false =>
    obtain ⟨kept, w, hkept, hrest⟩ := run_bind_eq_some.1 hrest
    cases kept with
    | true =>
      obtain ⟨-, rfl⟩ := run_pure_eq_some.1 hrest
      obtain ⟨u, hinner, rfl⟩ := run_of_keptItem hkept
      exact hitem hs (fun hmem => Bool.false_ne_true (hstops.2 hmem)) hinner ht
    | false =>
      -- the item took no characters, and this has been noted
      exact absurd ht (errors_ne_nil_of_run_report hrules hrest)

/-! ### Statements -/

/-- A node stands where a statement can begin: among the consumed tokens, there are those in front of
it and those that do not start in front of it, and if the last one in front of it is a keyword that
has to share its line with what follows, there is a line break between them. -/
def StartsAfter (text : List Char) (tokens : List Token) (piece : Tree) : Prop :=
  ∃ newer older, tokens = newer ++ older ∧ (∀ token ∈ older, token.stop ≤ piece.start) ∧
    (∀ token ∈ newer, piece.start ≤ token.start) ∧
    ∀ token, older.head? = some token → isSensitive token.kind = true →
      BreaksBetween text token.stop piece.start

/-- What is consumed later changes nothing in front of a node. -/
theorem StartsAfter.append {newer : List Token} {piece : Tree} {tokens : List Token}
    (h : StartsAfter text tokens piece) (hnewer : ∀ token ∈ newer, piece.start ≤ token.start) :
    StartsAfter text (newer ++ tokens) piece := by
  obtain ⟨front, older, htokens, holder, hfront, hbreaks⟩ := h
  refine ⟨newer ++ front, older, ?_, holder, List.forall_mem_append.2 ⟨hnewer, hfront⟩, hbreaks⟩
  rw [htokens, List.append_assoc]

/-- The statements that have been read stand where they can, and so will the next one. -/
structure State.Apart (text : List Char) (s : State) : Prop where
  noted : BreaksNoted text s.scanner s.tokens
  ended : s.Ended
  le : ∀ piece ∈ s.pieces, piece.start ≤ s.position
  pieces : ∀ piece ∈ s.pieces, StartsAfter text s.tokens piece

/-- The next statement stands where it can. -/
theorem State.Apart.startsAfter (h : s.Apart text) (hkind : beginsNothing s.scanner.kind = false)
    (hend : s.scanner.kind ≠ .endOfFile) {token : Token} (htoken : s.tokens.head? = some token)
    (hsensitive : isSensitive token.kind = true) : BreaksBetween text token.stop s.position := by
  have hmem : token ∈ s.tokens := List.mem_of_head? htoken
  rcases h.ended token htoken hsensitive with hline | hbrace | hfile
  · rcases h.noted.noted hline with htext | hbreaks
    · rw [htext] at hkind
      cases hkind
    · exact hbreaks.mono (h.noted.behind token hmem) le_rfl
  · rw [hbrace] at hkind
    cases hkind
  · exact absurd hfile hend

theorem State.Apart.statement {n : ℕ} (h : s.Apart text) (hend : s.scanner.kind ∉ [.endOfFile])
    (hrun : (call .statement).run (rulesWithin n) context s.openScope = some ((), t))
    (ht : t.errors = []) : (t.closeScope s).Apart text := by
  have hrules := ending_rulesWithin text n
  have hsound : s.openScope.scanner.Sound text := h.noted.sound
  have hkind := beginsNothing_of_statement hrun ht
  have hended : t.Ended := hrules.ended (by rfl) hsound hrun ht
  have hnoted : BreaksNoted text t.scanner t.tokens :=
    breaksNoted_run (s := s.openScope) h.noted hrun
  obtain ⟨piece, hpiece, hstart⟩ := hrules.leaves hsound hrun ht
  -- the tokens of the statement are put in front of the old ones
  have hconsumes : ConsumesFrom text s.position s.tokens t.scanner t.tokens :=
    consumesFrom_run (s := s.openScope) ⟨hsound, le_rfl, [], rfl, by simp⟩ hrun
  obtain ⟨newer, htokens, hnewer⟩ := hconsumes.tokens
  have hpieces : (t.closeScope s).pieces = piece :: s.pieces := by
    show t.pieces ++ s.pieces = _
    rw [hpiece]
    rfl
  have hstart : piece.start = s.position := hstart
  have hle : ∀ piece ∈ s.pieces, piece.start ≤ t.position :=
    fun piece hpiece => (h.le piece hpiece).trans hconsumes.le
  refine ⟨hnoted, hended, ?_, ?_⟩ <;> rw [hpieces, List.forall_mem_cons]
  · exact ⟨hstart ▸ hconsumes.le, hle⟩
  · -- the new statement is behind the old tokens, and the old statements are in front of the new ones
    refine ⟨⟨newer, s.tokens, htokens, ?_, ?_, ?_⟩, fun piece hpiece => ?_⟩
    · exact fun token htoken =>
        hstart ▸ (h.noted.behind token htoken).trans h.noted.fullStart_le
    · exact fun token htoken => hstart ▸ hnewer token htoken
    · exact fun token htoken hsensitive =>
        hstart ▸ h.startsAfter hkind (by simpa using hend) htoken hsensitive
    · have hlater := (h.pieces piece hpiece).append fun token htoken =>
        (h.le piece hpiece).trans (hnewer token htoken)
      rwa [← htokens] at hlater

theorem apart_ofText (text : List Char) :
    State.Apart text (State.advance .code { scanner := Scanner.ofText text }) where
  noted :=
    { sound := Scanner.sound_next (.refl _)
      behind := fun token htoken => by cases htoken
      fullStart_le := Nat.zero_le _
      noted := Scan.noted_apply .code (.refl _) }
  ended := fun token htoken => by cases htoken
  le := fun piece hpiece => by cases hpiece
  pieces := fun piece hpiece => by cases hpiece

/-- The statements of a text that is read without errors stand where they can. -/
theorem apart_of_wholeText {n : ℕ}
    (hrun : wholeText.run (rulesWithin n) context { scanner := Scanner.ofText text } = some ((), t))
    (ht : t.errors = []) : t.Apart text := by
  obtain ⟨_, u, hadvance, hitems⟩ := run_bind_eq_some.1 hrun
  cases hadvance
  exact itemsUntil_invariant (p := State.Apart text) (grows_rulesWithin n)
    (fun _ _ h hend hrun ht => h.statement hend hrun ht) (apart_ofText text) hitems ht

end Grammar

namespace SourceFile

open Grammar

variable {dialect : Dialect} {text : List Char} {file : SourceFile} {offset : ℕ} {token : Token}

theorem covered_of_read? (h : read? dialect text = some file) :
    Covered text 0 (byteLength text) file.tokens := by
  obtain ⟨⟨⟨⟩, t⟩, hrun, heq⟩ := Option.bind_eq_some_iff.1 h
  cases heq
  exact covered_of_run hrun

theorem of_tokenBefore?_eq_some (h : file.tokenBefore? offset = some token) :
    token ∈ file.tokens ∧ token.stop ≤ offset := by
  have hmem := List.mem_of_getLast? h
  have hstop := List.all_eq_true.1 List.all_takeWhile _ hmem
  exact ⟨(List.takeWhile_sublist _).subset hmem, of_decide_eq_true hstop⟩

theorem startsAfter_of_child (h : read? dialect text = some file) (hclean : file.errors = [])
    {child : Tree} (hchild : child ∈ file.tree.children) :
    StartsAfter text file.tokens.reverse child := by
  obtain ⟨_, t, hrun, -, herrors, htokens, htree⟩ := read?_eq_some h
  rw [htree] at hchild
  rw [htokens, List.reverse_reverse]
  exact (apart_of_wholeText hrun (by simpa [herrors] using hclean)).pieces child
    (List.mem_reverse.1 hchild)

/-- If, at an offset in a statement of a text, the token in front of it is a keyword that has to
share its line with what follows, and that keyword is in front of the statement, then there is a line
break between the keyword and the statement. -/
theorem breaksBetween_of_child (h : read? dialect text = some file) (hclean : file.errors = [])
    {child : Tree} (hchild : child ∈ file.tree.children) (hoffset : child.start ≤ offset)
    (hbefore : file.tokenBefore? offset = some token) (hsensitive : isSensitive token.kind = true)
    (hfront : token.start < child.start) : BreaksBetween text token.stop child.start := by
  obtain ⟨newer, older, htokens, holder, hnewer, hbreaks⟩ := startsAfter_of_child h hclean hchild
  refine hbreaks token ?_ hsensitive
  -- the tokens in front of the statement stop up to the offset, so the last of all these is not newer
  have hsplit : file.tokens = older.reverse ++ newer.reverse := by
    rw [← List.reverse_append, ← htokens, List.reverse_reverse]
  rw [tokenBefore?, hsplit, List.takeWhile_append_of_pos fun token htoken =>
    decide_eq_true ((holder token (List.mem_reverse.1 htoken)).trans hoffset)] at hbefore
  rw [List.getLast?_append] at hbefore
  cases hlast : (newer.reverse.takeWhile fun token => decide (token.stop ≤ offset)).getLast? with
  | none =>
    rw [hlast, Option.none_or, List.getLast?_reverse] at hbefore
    exact hbefore
  | some last =>
    rw [hlast, Option.some_or] at hbefore
    obtain rfl := Option.some.inj hbefore
    have hmem := (List.takeWhile_sublist _).subset (List.mem_of_getLast? hlast)
    have := hnewer last (List.mem_reverse.1 hmem)
    omega

end SourceFile

end ExpectError
