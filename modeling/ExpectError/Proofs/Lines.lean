import ExpectError.Proofs.Bytes
import ExpectError.Text.Lines

/-!
# Lines and columns of boundaries

The line of an offset is found by counting the line starts at or below it, and its column by counting
code units from the last of these. At the boundaries of a text nothing is lost: positions grow with
the offsets, so different boundaries have different positions and different stretches of text have
different ranges.

* `greatest_getD_countP`: counting the smaller members of an increasing list finds the greatest;
* `positionOf_lt`: positions grow with the boundaries;
* `rangeOf_inj`: a range between boundaries tells where it starts and stops.
-/

namespace ExpectError.Text

/-! ### Code units -/

theorem unitSize_pos (c : Char) : 0 < unitSize c := by
  unfold unitSize
  split <;> decide

theorem unitLength_append (a b : List Char) :
    unitLength (a ++ b) = unitLength a + unitLength b := by
  induction a with
  | nil => simp [unitLength]
  | cons c a ih => simp [unitLength, ih, Nat.add_assoc]

/-- Of two beginnings of one text, the one with more bytes has more code units. -/
theorem unitLength_lt {a a' b b' : List Char} (h : a ++ a' = b ++ b')
    (hlt : byteLength a < byteLength b) : unitLength a < unitLength b := by
  obtain ⟨middle, rfl, -⟩ := exists_append_of_byteLength_le h hlt.le
  cases middle with
  | nil => simp at hlt
  | cons c middle =>
    have := unitSize_pos c
    rw [unitLength_append, unitLength]
    omega

/-! ### Positions -/

/-- One position is the other or in front of it. -/
def Position.AtOrBefore (first last : Position) : Prop :=
  first.line < last.line ∨ first.line = last.line ∧ first.character ≤ last.character

/-! ### Line starts -/

/-- In an increasing list, the member whose index is the number of members at or below `n`, less one,
is the greatest of these. -/
theorem greatest_getD_countP {n : ℕ} (l : List ℕ) {first : ℕ}
    (hl : (first :: l).Pairwise (· < ·)) (hfirst : first ≤ n) :
    let last := (first :: l).getD ((first :: l).countP (fun m => decide (m ≤ n)) - 1) 0
    last ∈ first :: l ∧ last ≤ n ∧ ∀ m ∈ first :: l, m ≤ n → m ≤ last := by
  induction l generalizing first with
  | nil => simp [hfirst]
  | cons second l ih =>
    obtain ⟨hlt, hl⟩ := List.pairwise_cons.1 hl
    by_cases hsecond : second ≤ n
    · -- the first member counts, but it is not the last one that does
      obtain ⟨hmem, hle, hgreatest⟩ := ih hl hsecond
      have hcount : (first :: second :: l).countP (fun m => decide (m ≤ n)) - 1 =
          (second :: l).countP (fun m => decide (m ≤ n)) - 1 + 1 := by
        simp [hfirst, hsecond]
      simp only [hcount, List.getD_cons_succ]
      refine ⟨List.mem_cons_of_mem _ hmem, hle, fun m hm hmn => ?_⟩
      rcases List.mem_cons.1 hm with rfl | hm
      · exact (hlt second List.mem_cons_self).le.trans (hgreatest second List.mem_cons_self hsecond)
      · exact hgreatest m hm hmn
    · have hnone : ∀ m ∈ second :: l, ¬ m ≤ n := by
        intro m hm
        rcases List.mem_cons.1 hm with rfl | hm
        · exact hsecond
        · have := List.rel_of_pairwise_cons hl hm
          omega
      have hcount : (first :: second :: l).countP (fun m => decide (m ≤ n)) - 1 = 0 := by
        rw [List.countP_cons_of_pos (by simpa using hfirst),
          List.countP_eq_zero.2 fun m hm => by simpa using hnone m hm]
      simp only [hcount, List.getD_cons_zero]
      refine ⟨List.mem_cons_self, hfirst, fun m hm hmn => ?_⟩
      rcases List.mem_cons.1 hm with rfl | hm
      · exact le_rfl
      · exact absurd hmn (hnone m hm)

theorem exists_of_mem_lineStartsFrom {pos n : ℕ} {cs : List Char} (h : n ∈ lineStartsFrom pos cs) :
    ∃ m, IsBoundary cs m ∧ 0 < m ∧ n = pos + m := by
  induction cs generalizing pos with
  | nil => simp [lineStartsFrom] at h
  | cons c cs ih =>
    have hc := c.utf8Size_pos
    -- a start behind the first character is a start of the rest
    have hrest : n ∈ lineStartsFrom (pos + c.utf8Size) cs →
        ∃ m, IsBoundary (c :: cs) m ∧ 0 < m ∧ n = pos + m := by
      intro h
      obtain ⟨m, hm, hpos, rfl⟩ := ih h
      exact ⟨c.utf8Size + m, isBoundary_cons.2 (Or.inr ⟨m, hm, rfl⟩), by omega, by omega⟩
    rw [lineStartsFrom] at h
    split at h
    · rcases List.mem_cons.1 h with rfl | h
      · exact ⟨c.utf8Size, isBoundary_cons.2 (Or.inr ⟨0, isBoundary_zero cs, rfl⟩), hc, rfl⟩
      · exact hrest h
    · exact hrest h

theorem pairwise_lineStartsFrom (pos : ℕ) (cs : List Char) :
    (lineStartsFrom pos cs).Pairwise (· < ·) := by
  induction cs generalizing pos with
  | nil => exact .nil
  | cons c cs ih =>
    rw [lineStartsFrom]
    split
    · refine List.pairwise_cons.2 ⟨fun n hn => ?_, ih _⟩
      obtain ⟨m, -, hm, rfl⟩ := exists_of_mem_lineStartsFrom hn
      omega
    · exact ih _

theorem pairwise_lineStarts (text : List Char) : (lineStarts text).Pairwise (· < ·) := by
  refine List.pairwise_cons.2 ⟨fun n hn => ?_, pairwise_lineStartsFrom 0 text⟩
  obtain ⟨m, -, hm, rfl⟩ := exists_of_mem_lineStartsFrom hn
  omega

theorem isBoundary_of_mem_lineStarts {text : List Char} {n : ℕ} (h : n ∈ lineStarts text) :
    IsBoundary text n := by
  rcases List.mem_cons.1 h with rfl | h
  · exact isBoundary_zero text
  · obtain ⟨m, hm, -, rfl⟩ := exists_of_mem_lineStartsFrom h
    rwa [Nat.zero_add]

/-- In an increasing list, the members at or below a value are those below it and the value itself, if
it stands where it would have to be put. -/
theorem countP_le_of_pairwise {l : List ℕ} (h : l.Pairwise (· < ·)) (value : ℕ) :
    l.countP (fun m => decide (m ≤ value)) =
      l.countP (fun m => decide (m < value)) +
        if l[l.countP fun m => decide (m < value)]? = some value then 1 else 0 := by
  induction l with
  | nil => rfl
  | cons first l ih =>
    obtain ⟨hfirst, hl⟩ := List.pairwise_cons.1 h
    by_cases hlt : first < value
    · rw [List.countP_cons_of_pos (by simpa using hlt.le), ih hl,
        List.countP_cons_of_pos (by simpa using hlt), List.getElem?_cons_succ]
      omega
    · -- all other members are greater than the first one
      have hnone : ∀ m ∈ l, ¬ m ≤ value := by
        intro m hm
        have := hfirst m hm
        omega
      have hle : l.countP (fun m => decide (m ≤ value)) = 0 :=
        List.countP_eq_zero.2 fun m hm => by simpa using hnone m hm
      have hbelow : (first :: l).countP (fun m => decide (m < value)) = 0 := by
        refine List.countP_eq_zero.2 fun m hm => ?_
        rcases List.mem_cons.1 hm with rfl | hm
        · simpa using hlt
        · have := hnone m hm
          simp
          omega
      rw [List.countP_cons, hle, hbelow, List.getElem?_cons_zero]
      by_cases heq : first = value
      · simp [heq]
      · have : ¬ first ≤ value := by omega
        simp [heq, this]

namespace LineMap

/-- The line of an offset is the number of lines that start at or below it, counted from zero. -/
theorem lineOf_eq_countP (map : LineMap) (n : ℕ) :
    map.lineOf n = map.starts.countP (fun start => decide (start ≤ n)) - 1 := by
  rw [countP_le_of_pairwise (map.starts_eq ▸ pairwise_lineStarts map.text), lineOf, findAscending]
  split_ifs <;> rfl

theorem lineOf_mono (map : LineMap) {m n : ℕ} (h : m ≤ n) : map.lineOf m ≤ map.lineOf n := by
  rw [lineOf_eq_countP, lineOf_eq_countP]
  refine Nat.sub_le_sub_right (List.countP_mono_left fun start _ hstart => ?_) 1
  rw [decide_eq_true_iff] at hstart ⊢
  exact hstart.trans h

/-- The line of an offset starts at the last line start at or below it. -/
theorem lineStartOf_spec (text : List Char) (n : ℕ) :
    (ofText text).lineStartOf n ∈ lineStarts text ∧ (ofText text).lineStartOf n ≤ n ∧
      ∀ m ∈ lineStarts text, m ≤ n → m ≤ (ofText text).lineStartOf n := by
  rw [lineStartOf, lineOf_eq_countP, starts_ofText]
  exact greatest_getD_countP _ (pairwise_lineStarts text) n.zero_le

theorem lineStartOf_congr (map : LineMap) {m n : ℕ} (h : map.lineOf m = map.lineOf n) :
    map.lineStartOf m = map.lineStartOf n := by
  rw [lineStartOf, lineStartOf, h]

/-! ### Positions and ranges -/

/-- A boundary stands behind the beginning of its line, and its column is the number of code units
in between. -/
theorem exists_positionOf {text : List Char} {n : ℕ} (h : IsBoundary text n) :
    ∃ before line after, text = before ++ (line ++ after) ∧
      byteLength before = (ofText text).lineStartOf n ∧ byteLength (before ++ line) = n ∧
      (ofText text).positionOf n = { line := (ofText text).lineOf n, character := unitLength line } := by
  obtain ⟨hmem, hle, -⟩ := lineStartOf_spec text n
  obtain ⟨before, rest, htext, hbefore⟩ := isBoundary_of_mem_lineStarts hmem
  obtain ⟨head, after, htext', hhead⟩ := h
  obtain ⟨line, rfl, -⟩ :=
    exists_append_of_byteLength_le (htext.symm.trans htext') (by omega)
  refine ⟨before, line, after, by rw [htext', List.append_assoc], hbefore, hhead, ?_⟩
  have hstop : n ≤ byteLength text := by rw [htext', byteLength_append]; omega
  have hslice : slice? ((ofText text).lineStartOf n) n text = some line := by
    have hrest : byteLength line = n - byteLength before := by
      rw [byteLength_append] at hhead
      omega
    rw [slice?, if_neg (by omega), ← hbefore, htext', List.append_assoc, splitAtByte?_append]
    simp only [Option.bind_eq_bind, Option.bind_some]
    rw [← hrest, splitAtByte?_append]
    rfl
  have htextOf : (ofText text).text = text := rfl
  rw [positionOf, htextOf, Nat.min_eq_left hstop, Nat.min_eq_left hle]
  simp [hslice]

/-- Positions grow with the boundaries: either the line grows, or it stays and the column grows. -/
theorem positionOf_lt {text : List Char} {m n : ℕ} (hm : IsBoundary text m)
    (hn : IsBoundary text n) (h : m < n) :
    ((ofText text).positionOf m).line < ((ofText text).positionOf n).line ∨
      ((ofText text).positionOf m).line = ((ofText text).positionOf n).line ∧
        ((ofText text).positionOf m).character < ((ofText text).positionOf n).character := by
  obtain ⟨a, b, c, htext, ha, hab, hpos⟩ := exists_positionOf hm
  obtain ⟨a', b', c', htext', ha', hab', hpos'⟩ := exists_positionOf hn
  rw [hpos, hpos']
  rcases (lineOf_mono (ofText text) h.le).lt_or_eq with hline | hline
  · exact Or.inl hline
  · -- both columns are counted from the same line start
    have hstart := lineStartOf_congr _ hline
    obtain ⟨rfl, hbc⟩ := append_inj_of_byteLength (htext.symm.trans htext') (by omega)
    rw [byteLength_append] at hab hab'
    exact Or.inr ⟨hline, unitLength_lt hbc (by omega)⟩

theorem positionOf_inj {text : List Char} {m n : ℕ} (hm : IsBoundary text m)
    (hn : IsBoundary text n)
    (hline : ((ofText text).positionOf m).line = ((ofText text).positionOf n).line)
    (hcolumn : ((ofText text).positionOf m).character = ((ofText text).positionOf n).character) :
    m = n := by
  rcases lt_trichotomy m n with hlt | heq | hlt
  · have := positionOf_lt hm hn hlt
    omega
  · exact heq
  · have := positionOf_lt hn hm hlt
    omega

/-- Between boundaries, a range tells where it starts and where it stops. -/
theorem rangeOf_inj {text : List Char} {m n m' n' : ℕ} (hm : IsBoundary text m)
    (hn : IsBoundary text n) (hm' : IsBoundary text m') (hn' : IsBoundary text n') :
    (ofText text).rangeOf m n = (ofText text).rangeOf m' n' ↔ m = m' ∧ n = n' := by
  constructor
  · intro h
    simp only [rangeOf, Range.mk.injEq, Nat.add_right_cancel_iff] at h
    obtain ⟨hline, hcolumn, hline', hcolumn'⟩ := h
    exact ⟨positionOf_inj hm hm' hline hcolumn, positionOf_inj hn hn' hline' hcolumn'⟩
  · rintro ⟨rfl, rfl⟩
    rfl

end LineMap

end ExpectError.Text
