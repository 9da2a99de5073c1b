import ExpectError.Text.Fields
import Mathlib.Tactic

/-!
# Fields of texts

A text and its fields say the same: with separators in front of them, the fields are put together
to the text again (`flatMap_fields`), and texts without separators are found again as fields
(`fields_flatMap`).
-/

namespace ExpectError.Text

variable {separator : Char} {cs field : List Char} {names : List (List Char)}

theorem fields_ne_nil (separator : Char) (cs : List Char) : fields separator cs ≠ [] := by
  cases cs with
  | nil => simp [fields_nil]
  | cons c cs =>
    rw [fields_cons]
    split
    · simp
    · split <;> simp

theorem fields_cons_separator (separator : Char) (cs : List Char) :
    fields separator (separator :: cs) = [] :: fields separator cs := by
  rw [fields_cons, if_pos rfl]

/-- Any other character joins the first field of what follows it. -/
theorem exists_fields_cons {c : Char} (hne : c ≠ separator) (cs : List Char) :
    ∃ first rest, fields separator cs = first :: rest ∧
      fields separator (c :: cs) = (c :: first) :: rest := by
  obtain ⟨first, rest, hfields⟩ := List.exists_cons_of_ne_nil (fields_ne_nil separator cs)
  exact ⟨first, rest, hfields, by rw [fields_cons, if_neg hne, hfields]⟩

/-- A separator ends a field. -/
theorem fields_append_separator (separator : Char) (cs rest : List Char) :
    fields separator (cs ++ separator :: rest) = fields separator cs ++ fields separator rest := by
  induction cs with
  | nil => simp [fields_nil, fields_cons_separator]
  | cons c cs ih =>
    rw [List.cons_append, fields_cons, ih]
    split
    next heq => rw [heq, fields_cons_separator, List.cons_append]
    next hne =>
      obtain ⟨first, more, hfields, hcons⟩ := exists_fields_cons hne cs
      rw [hfields, hcons]
      rfl

theorem fields_of_not_mem (h : separator ∉ cs) : fields separator cs = [cs] := by
  induction cs with
  | nil => rfl
  | cons c cs ih =>
    obtain ⟨hc, hcs⟩ := not_or.1 (List.mem_cons.not.1 h)
    rw [fields_cons, if_neg (Ne.symm hc), ih hcs]

theorem fields_append {line : List Char} (h : separator ∉ line) (rest : List Char) :
    fields separator (line ++ separator :: rest) = line :: fields separator rest := by
  rw [fields_append_separator, fields_of_not_mem h]
  rfl

theorem not_mem_of_mem_fields (h : field ∈ fields separator cs) : separator ∉ field := by
  induction cs generalizing field with
  | nil =>
    rw [fields_nil, List.mem_singleton] at h
    simp [h]
  | cons c cs ih =>
    by_cases hc : c = separator
    · rw [hc, fields_cons_separator] at h
      rcases List.mem_cons.1 h with rfl | h
      · exact List.not_mem_nil
      · exact ih h
    · obtain ⟨first, rest, hfields, hcons⟩ := exists_fields_cons hc cs
      rw [hcons] at h
      rw [hfields] at ih
      rcases List.mem_cons.1 h with rfl | h
      · exact List.not_mem_cons_of_ne_of_not_mem (Ne.symm hc) (ih List.mem_cons_self)
      · exact ih (List.mem_cons_of_mem _ h)

/-- With a separator in front, every field has one in front of it. -/
theorem flatMap_fields (separator : Char) (cs : List Char) :
    (fields separator cs).flatMap (separator :: ·) = separator :: cs := by
  induction cs with
  | nil => rfl
  | cons c cs ih =>
    by_cases hc : c = separator
    · rw [hc, fields_cons_separator, List.flatMap_cons, ih]
      rfl
    · obtain ⟨first, rest, hfields, hcons⟩ := exists_fields_cons hc cs
      rw [hfields, List.flatMap_cons, List.cons_append] at ih
      rw [hcons]
      simp only [List.flatMap_cons, List.cons_append, List.cons.inj ih]

/-- The characters of a field are characters of the text. -/
theorem mem_of_mem_fields {c : Char} (h : field ∈ fields separator cs) (hc : c ∈ field) :
    c ∈ cs := by
  have hmem : c ∈ (fields separator cs).flatMap (separator :: ·) :=
    List.mem_flatMap.2 ⟨field, h, List.mem_cons_of_mem _ hc⟩
  rw [flatMap_fields] at hmem
  refine (List.mem_cons.1 hmem).resolve_left ?_
  rintro rfl
  exact not_mem_of_mem_fields h hc

theorem flatMap_eq_cons_intercalate (separator : Char) (hne : names ≠ []) :
    names.flatMap (separator :: ·) = separator :: [separator].intercalate names := by
  induction names with
  | nil => exact absurd rfl hne
  | cons name names ih =>
    cases names with
    | nil => simp
    | cons second names =>
      rw [List.flatMap_cons, ih (by simp)]
      simp [List.intercalate]

/-- Texts with a separator in front of each of them are found again. -/
theorem fields_flatMap (h : ∀ name ∈ names, separator ∉ name) :
    fields separator (names.flatMap (separator :: ·)) = [] :: names := by
  induction names using List.reverseRecOn with
  | nil => rfl
  | append_singleton names name ih =>
    obtain ⟨hnames, hname⟩ := List.forall_mem_append.1 h
    rw [List.flatMap_append, List.flatMap_singleton, fields_append_separator, ih hnames,
      fields_of_not_mem (hname name List.mem_cons_self)]
    rfl

end ExpectError.Text
