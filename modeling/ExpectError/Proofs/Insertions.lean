import ExpectError.Insertion
import ExpectError.Proofs.Bytes
import ExpectError.Proofs.Utf8Order

/-!
# The text with all insertions made

Insertions are made one after the other in a text that grows, at offsets found in the text as it
was. That this is right rests on their order: they are made from the end of the text to its start,
and clamping an offset to a boundary keeps this order, so the part in front of the next place is
still the text as it was.

* `interleave`: a text with words in front of each of its boundaries;
* `applyTo_interleave`: one insertion adds its words in front of those that already stand there;
* `toList_applyAll`: all insertions interleave the text with their words, in ascending order;
* `applyAll_eq_interleave`: the same for the caller, together with the independence of the order in
  which the insertions are given.
-/

namespace ExpectError.Insertion

open Text

/-! ### Words in front of boundaries -/

/-- A text that begins at offset `pos`, with words in front of each of its boundaries, the end
included. -/
def interleave (words : ℕ → List Char) (pos : ℕ) : List Char → List Char
  | [] => words pos
  | c :: cs => words pos ++ c :: interleave words (pos + c.utf8Size) cs

theorem interleave_nil_words (pos : ℕ) (text : List Char) :
    interleave (fun _ => []) pos text = text := by
  induction text generalizing pos with
  | nil => rfl
  | cons c cs ih => simp [interleave, ih]

theorem interleave_congr {words words' : ℕ → List Char} {pos : ℕ} (text : List Char)
    (h : ∀ n, pos ≤ n → words n = words' n) :
    interleave words pos text = interleave words' pos text := by
  induction text generalizing pos with
  | nil => exact h pos le_rfl
  | cons c cs ih =>
    rw [interleave, interleave, h pos le_rfl, ih fun n hn => h n (by omega)]

theorem interleave_append {words : ℕ → List Char} {pos : ℕ} (a b : List Char)
    (h : ∀ n, pos ≤ n → n < pos + byteLength a → words n = []) :
    interleave words pos (a ++ b) = a ++ interleave words (pos + byteLength a) b := by
  induction a generalizing pos with
  | nil => simp
  | cons c a ih =>
    have hc := c.utf8Size_pos
    rw [List.cons_append, interleave, h pos le_rfl (by rw [byteLength_cons]; omega),
      ih fun n hn hlt => h n (by omega) (by rw [byteLength_cons]; omega)]
    simp [Nat.add_assoc]

/-- A beginning of the text without words in it stays as it is. -/
theorem interleave_eq_append {words : ℕ → List Char} {source before after : List Char}
    (hsource : source = before ++ after) (h : ∀ n < byteLength before, words n = []) :
    interleave words 0 source = before ++ interleave words (byteLength before) after := by
  subst hsource
  rw [interleave_append before after fun n _ hn => h n (by omega), Nat.zero_add]

/-- More words at the first boundary. -/
theorem interleave_prepend (words : ℕ → List Char) (pos : ℕ) (more text : List Char) :
    interleave (Function.update words pos (more ++ words pos)) pos text =
      more ++ interleave words pos text := by
  cases text with
  | nil => simp [interleave]
  | cons c cs =>
    have hc := c.utf8Size_pos
    have hrest : interleave (Function.update words pos (more ++ words pos)) (pos + c.utf8Size) cs =
        interleave words (pos + c.utf8Size) cs :=
      interleave_congr cs fun n hn => Function.update_of_ne (by omega) _ _
    rw [interleave, interleave, Function.update_self, List.append_assoc, hrest]

/-! ### The words of insertions -/

/-- The insertions that belong in front of a boundary, in their order. -/
def placedAt (source : List Char) (insertions : List Insertion) (b : ℕ) : List Insertion :=
  insertions.filter fun i => floorBoundary i.pos source = b

/-- Their words, one after the other. -/
def wordsAt (source : List Char) (insertions : List Insertion) (b : ℕ) : List Char :=
  (placedAt source insertions b).flatMap (·.text.toList)

theorem wordsAt_cons (source : List Char) (i : Insertion) (insertions : List Insertion) :
    wordsAt source (i :: insertions) =
      Function.update (wordsAt source insertions) (floorBoundary i.pos source)
        (i.text.toList ++ wordsAt source insertions (floorBoundary i.pos source)) := by
  funext b
  by_cases h : b = floorBoundary i.pos source
  · subst h
    simp [wordsAt, placedAt]
  · rw [Function.update_of_ne h]
    simp [wordsAt, placedAt, List.filter_cons_of_neg, Ne.symm h]

/-- The words of insertions that belong behind a place do not stand in front of it. -/
theorem wordsAt_eq_nil {source : List Char} {insertions : List Insertion} {n : ℕ}
    (h : ∀ i ∈ insertions, n < floorBoundary i.pos source) : wordsAt source insertions n = [] := by
  have : placedAt source insertions n = [] := by
    refine List.filter_eq_nil_iff.2 fun i hi => ?_
    have := h i hi
    simp only [decide_eq_true_eq]
    omega
  rw [wordsAt, this, List.flatMap_nil]

/-! ### One insertion -/

/-- One insertion in a text that has been edited at its place and behind it. The place is a boundary
of the edited text, and the words go in front of those that already stand there. -/
theorem applyTo_interleave {source : List Char} {made : List Insertion} {i : Insertion}
    (h : ∀ m ∈ made, floorBoundary i.pos source ≤ floorBoundary m.pos source) :
    IsBoundary (interleave (wordsAt source made) 0 source) (floorBoundary i.pos source) ∧
      applyTo source (interleave (wordsAt source made) 0 source) i =
        interleave (wordsAt source (i :: made)) 0 source := by
  obtain ⟨before, after, hsource, hlength⟩ := isBoundary_floorBoundary i.pos source
  -- nothing has been put in front of the place yet
  have hfree : ∀ n < byteLength before, wordsAt source made n = [] := by
    intro n hn
    refine wordsAt_eq_nil fun m hm => ?_
    have := h m hm
    omega
  have hfree' : ∀ n < byteLength before, wordsAt source (i :: made) n = [] := by
    intro n hn
    rw [wordsAt_cons, Function.update_of_ne (by omega), hfree n hn]
  have hedited := interleave_eq_append hsource hfree
  refine ⟨⟨before, _, hedited, hlength⟩, ?_⟩
  have hsplit := splitAtByte?_eq_some_iff.2 ⟨hedited, hlength⟩
  calc applyTo source (interleave (wordsAt source made) 0 source) i
      = before ++ (i.text.toList ++
          interleave (wordsAt source made) (byteLength before) after) := by
        simp only [applyTo, insertAt, hsplit, List.append_assoc]
    _ = before ++ interleave (wordsAt source (i :: made)) (byteLength before) after := by
        rw [wordsAt_cons, ← hlength, interleave_prepend]
    _ = interleave (wordsAt source (i :: made)) 0 source :=
        (interleave_eq_append hsource hfree').symm

/-! ### The order of application -/

theorem appliesBefore_iff {a b : Insertion} :
    appliesBefore a b = true ↔ b.pos < a.pos ∨ a.pos = b.pos ∧ b.text ≤ a.text := by
  simp [appliesBefore]

theorem appliesBefore_trans (a b c : Insertion) (hab : appliesBefore a b = true)
    (hbc : appliesBefore b c = true) : appliesBefore a c = true := by
  rw [appliesBefore_iff] at *
  rcases hab with hab | ⟨hab, tab⟩ <;> rcases hbc with hbc | ⟨hbc, tbc⟩
  · exact Or.inl (by omega)
  · exact Or.inl (by omega)
  · exact Or.inl (by omega)
  · exact Or.inr ⟨hab.trans hbc, String.le_trans tbc tab⟩

theorem appliesBefore_total (a b : Insertion) :
    (appliesBefore a b || appliesBefore b a) = true := by
  rw [Bool.or_eq_true, appliesBefore_iff, appliesBefore_iff]
  rcases Nat.lt_trichotomy a.pos b.pos with h | h | h
  · exact Or.inr (Or.inl h)
  · rcases String.le_total a.text b.text with ht | ht
    · exact Or.inr (Or.inr ⟨h.symm, ht⟩)
    · exact Or.inl (Or.inr ⟨h, ht⟩)
  · exact Or.inl (Or.inl h)

theorem appliesBefore_antisymm {a b : Insertion} (hab : appliesBefore a b = true)
    (hba : appliesBefore b a = true) : a = b := by
  rw [appliesBefore_iff] at *
  rcases hab with hab | ⟨hpos, hab⟩ <;> rcases hba with hba | ⟨hpos', hba⟩
  · omega
  · omega
  · omega
  · cases a
    cases b
    simp only [mk.injEq]
    exact ⟨hpos, String.le_antisymm hba hab⟩

theorem pairwise_sortForApplication (insertions : List Insertion) :
    (sortForApplication insertions).Pairwise fun a b => appliesBefore a b = true :=
  List.pairwise_mergeSort appliesBefore_trans appliesBefore_total insertions

theorem sortForApplication_perm (insertions : List Insertion) :
    (sortForApplication insertions).Perm insertions :=
  List.mergeSort_perm insertions _

/-- The order of application does not depend on the order in which insertions were collected. -/
theorem sortForApplication_eq_of_perm {a b : List Insertion} (h : a.Perm b) :
    sortForApplication a = sortForApplication b :=
  List.Perm.eq_of_pairwise (fun _ _ _ _ => appliesBefore_antisymm)
    (pairwise_sortForApplication a) (pairwise_sortForApplication b)
    ((sortForApplication_perm a).trans (h.trans (sortForApplication_perm b).symm))

/-! ### All insertions -/

/-- After any number of insertions from the end to the start, the text is the source interleaved
with their words, the last one first. -/
theorem applyInOrder_eq_interleave (source : List Char) {insertions : List Insertion}
    (h : insertions.Pairwise fun a b => appliesBefore a b = true) :
    applyInOrder source insertions = interleave (wordsAt source insertions.reverse) 0 source := by
  -- by induction on the end of the list, which is the insertion made last
  induction insertions using List.reverseRecOn with
  | nil => exact (interleave_nil_words 0 source).symm
  | append_singleton made i ih =>
    obtain ⟨hmade, -, hlast⟩ := List.pairwise_append.1 h
    rw [applyInOrder, List.foldl_append, List.foldl_cons, List.foldl_nil, ← applyInOrder, ih hmade,
      List.reverse_append]
    refine (applyTo_interleave fun m hm => ?_).2
    have hbefore := hlast m (List.mem_reverse.1 hm) i (List.mem_singleton.2 rfl)
    apply floorBoundary_mono
    rcases appliesBefore_iff.1 hbefore with hpos | ⟨hpos, -⟩ <;> omega

/-- Ascending offsets, and ascending bytes at one offset. -/
def Ascending (a b : Insertion) : Prop :=
  a.pos < b.pos ∨ a.pos = b.pos ∧ bytesOf a.text ≤ bytesOf b.text

theorem ascending_iff_appliesBefore {a b : Insertion} :
    Ascending a b ↔ appliesBefore b a = true := by
  rw [Ascending, appliesBefore_iff, bytesOf_le_iff, eq_comm]

theorem toList_applyAll (source : String) (insertions : List Insertion) :
    (applyAll source insertions).toList =
      interleave (wordsAt source.toList (sortForApplication insertions).reverse) 0
        source.toList := by
  rw [applyAll, String.toList_ofList]
  exact applyInOrder_eq_interleave _ (pairwise_sortForApplication insertions)

/-- An offset falls to the greatest boundary at or below it. Every insertion is made at a boundary
of the text edited so far; in front of each boundary of the source stand the words of exactly the
insertions whose offset falls to it, by ascending offset and ascending bytes; and the order in which
the insertions are given does not matter. -/
theorem applyAll_eq_interleave (source : String) (insertions : List Insertion) :
    (∀ n, IsGreatest {b | IsBoundary source.toList b ∧ b ≤ n} (floorBoundary n source.toList)) ∧
    (∀ made i rest, sortForApplication insertions = made ++ i :: rest →
      IsBoundary (applyInOrder source.toList made) (floorBoundary i.pos source.toList)) ∧
    (∃ placed : ℕ → List Insertion,
      (∀ b, (placed b).Perm (insertions.filter fun i => floorBoundary i.pos source.toList = b)) ∧
      (∀ b, (placed b).Pairwise Ascending) ∧
      (applyAll source insertions).toList =
        interleave (fun b => (placed b).flatMap (·.text.toList)) 0 source.toList) ∧
    (∀ others, others.Perm insertions → applyAll source others = applyAll source insertions) := by
  refine ⟨?_, ?_, ?_, ?_⟩
  · intro n
    exact ⟨⟨isBoundary_floorBoundary n _, floorBoundary_le n _⟩, fun b hb =>
      le_floorBoundary hb.1 hb.2⟩
  · intro made i rest h
    have hsorted := h ▸ pairwise_sortForApplication insertions
    obtain ⟨hmade, -, hlater⟩ := List.pairwise_append.1 hsorted
    rw [applyInOrder_eq_interleave _ hmade]
    refine (applyTo_interleave fun m hm => ?_).1
    -- what was made before stands at the same offset or behind it, so the text up to there is
    -- untouched
    have hbefore := hlater m (List.mem_reverse.1 hm) i List.mem_cons_self
    apply floorBoundary_mono
    rcases appliesBefore_iff.1 hbefore with hpos | ⟨hpos, -⟩ <;> omega
  · refine ⟨placedAt source.toList (sortForApplication insertions).reverse, ?_, ?_, ?_⟩
    · intro b
      exact ((List.reverse_perm _).trans (sortForApplication_perm insertions)).filter _
    · intro b
      refine List.Pairwise.filter _ (List.pairwise_reverse.2 ?_)
      exact (pairwise_sortForApplication insertions).imp ascending_iff_appliesBefore.2
    · exact toList_applyAll source insertions
  · intro others h
    rw [applyAll, applyAll, sortForApplication_eq_of_perm h]

end ExpectError.Insertion
