import Mathlib.Tactic

/-!
# Computations that may fail

A computation in steps answers if all of its steps do (`bind_eq_ok_iff`), and so does a list of
them (`exists_mapM`). The answers of a list belong to it in order (`Answers`), and there is one list
of them at most (`rightUnique_answers`).
-/

namespace ExpectError

variable {α β ε : Type}

theorem bind_eq_ok_iff {first : Except ε α} {next : α → Except ε β} {b : β} :
    first >>= next = .ok b ↔ ∃ a, first = .ok a ∧ next a = .ok b := by
  cases first <;> simp [bind, Except.bind]

/-- Of values that all answer, the list of answers. -/
theorem exists_mapM {f : α → Except ε β} {R : α → β → Prop} {l : List α}
    (h : ∀ a ∈ l, ∃ b, f a = .ok b ∧ R a b) :
    ∃ answers, l.mapM f = .ok answers ∧ (∀ b ∈ answers, ∃ a ∈ l, R a b) ∧
      ∀ a ∈ l, ∃ b ∈ answers, R a b := by
  induction l with
  | nil => exact ⟨[], rfl, by simp, by simp⟩
  | cons a l ih =>
    obtain ⟨⟨b, hb, hab⟩, hl⟩ := List.forall_mem_cons.1 h
    obtain ⟨answers, hanswers, hback, hforth⟩ := ih hl
    refine ⟨b :: answers, ?_, List.forall_mem_cons.2 ⟨⟨a, List.mem_cons_self, hab⟩, ?_⟩,
      List.forall_mem_cons.2 ⟨⟨b, List.mem_cons_self, hab⟩, ?_⟩⟩
    · rw [List.mapM_cons, hb, hanswers]
      rfl
    · intro other hother
      obtain ⟨a', ha', hR⟩ := hback other hother
      exact ⟨a', List.mem_cons_of_mem _ ha', hR⟩
    · intro other hother
      obtain ⟨b', hb', hR⟩ := hforth other hother
      exact ⟨b', List.mem_cons_of_mem _ hb', hR⟩

/-- All values of a list answer, and these are the answers in order. -/
abbrev Answers (f : α → Except ε β) : List α → List β → Prop :=
  List.Forall₂ fun a b => f a = .ok b

/-- A list has one list of answers at most. -/
theorem rightUnique_answers (f : α → Except ε β) : Relator.RightUnique (Answers f) :=
  Relator.RightUnique.forall₂ fun _ _ _ h h' => Except.ok.inj (h.symm.trans h')

theorem Answers.exists_mem {f : α → Except ε β} {l : List α} {answers : List β}
    (h : Answers f l answers) {a : α} (ha : a ∈ l) : ∃ b ∈ answers, f a = .ok b := by
  induction h with
  | nil => cases ha
  | cons hb _ ih =>
    rcases List.mem_cons.1 ha with rfl | ha
    · exact ⟨_, List.mem_cons_self, hb⟩
    · obtain ⟨b, hmem, hb⟩ := ih ha
      exact ⟨b, List.mem_cons_of_mem _ hmem, hb⟩

end ExpectError
