import ExpectError.Tree.Arena
import Mathlib.Tactic

/-!
# Trees in arenas

Where every child is in front of its parent in the arena, and in one child list only and only once,
the places below a given one form a tree. The walks of an arena come to an end there, and they all
find the same places in the same order.

* `Arena.descend`: a place and all places below it, by recursion;
* `Arena.IsForest`: children in front of their parents, each in one child list;
* `preorderFrom_eq`, `visitsFrom_spec`, `linkFrom_spec`: what the walks find and enter;
* `Arena.IsTree`, `IsForest.exists_linkParents?`: what the arena is when parents have been entered.
-/

namespace ExpectError.Arena

variable {children : ℕ → List ℕ} {arena arena' : Arena} {i j c root : ℕ}

/-! ### Places below a place -/

/-- The second place is reached from the first one along child lists. -/
def Reaches (children : ℕ → List ℕ) : ℕ → ℕ → Prop :=
  Relation.ReflTransGen fun i c => c ∈ children i

/-- A place and the places below it, each in front of what is below it. -/
def descend (children : ℕ → List ℕ) (i : ℕ) : List ℕ :=
  i :: (children i).flatMap fun c => if _ : c < i then descend children c else []
termination_by i

section

variable (hlt : ∀ i, ∀ c ∈ children i, c < i)

include hlt

theorem descend_eq (i : ℕ) :
    descend children i = i :: (children i).flatMap (descend children) := by
  rw [descend]
  congr 1
  exact List.flatMap_congr fun c hc => dif_pos (hlt i c hc)

theorem mem_descend : j ∈ descend children i ↔ Reaches children i j := by
  induction i using Nat.strong_induction_on with
  | _ i ih =>
    rw [descend_eq hlt, List.mem_cons, List.mem_flatMap]
    constructor
    · rintro (rfl | ⟨c, hc, hj⟩)
      · exact .refl
      · exact .head hc ((ih c (hlt i c hc)).1 hj)
    · intro h
      rcases h.cases_head with rfl | ⟨c, hc, hj⟩
      · exact Or.inl rfl
      · exact Or.inr ⟨c, hc, (ih c (hlt i c hc)).2 hj⟩

theorem le_of_reaches (h : Reaches children i j) : j ≤ i := by
  induction h with
  | refl => exact le_rfl
  | tail _ hc ih => exact (hlt _ _ hc).le.trans ih

/-- Each place stands in front of its children, and these follow one another in their order. -/
theorem cons_sublist_descend (h : Reaches children i j) :
    (j :: children j).Sublist (descend children i) := by
  induction i using Nat.strong_induction_on with
  | _ i ih =>
    rcases h.cases_head with rfl | ⟨c, hc, hj⟩
    · rw [descend_eq hlt]
      refine List.Sublist.cons_cons i ?_
      -- each child stands at the front of what is below it
      have hfront (c : ℕ) : List.Sublist [c] (descend children c) := by
        rw [descend]
        exact List.singleton_sublist.2 List.mem_cons_self
      have hall (places : List ℕ) : places.Sublist (places.flatMap (descend children)) := by
        induction places with
        | nil => exact .slnil
        | cons c places ih => exact (hfront c).append ih
      exact hall (children i)
    · rw [descend_eq hlt]
      obtain ⟨before, after, hsplit⟩ := List.append_of_mem hc
      rw [hsplit, List.flatMap_append, List.flatMap_cons]
      exact ((ih c (hlt i c hc) hj).trans ((List.sublist_append_left _ _).trans
        (List.sublist_append_right _ _))).cons i

variable (hone : ∀ i j, ∀ c ∈ children i, c ∈ children j → i = j)

include hone

/-- Where each place has one parent, no place is below two sisters. -/
theorem disjoint_descend {d : ℕ} (hc : c ∈ children i) (hd : d ∈ children i) (hne : c ≠ d) :
    List.Disjoint (descend children c) (descend children d) := by
  have hunique : Relator.RightUnique (Function.swap fun i c => c ∈ children i) :=
    fun _ _ _ hi hj => hone _ _ _ hi hj
  -- the parent of the lower of two sisters, one above the other, would be above both and below one
  have apart {c d : ℕ} (hd : d ∈ children i) (hc : c ∈ children i) (hne : c ≠ d)
      (h : Reaches children c d) : False := by
    rcases h.cases_tail with rfl | ⟨e, he, hde⟩
    · exact hne rfl
    · have hei : e = i := hone _ _ _ hde hd
      have := le_of_reaches hlt he
      have := hlt i c hc
      omega
  intro j hjc hjd
  rw [mem_descend hlt] at hjc hjd
  rcases Relation.ReflTransGen.total_of_right_unique hunique hjc.swap hjd.swap with h | h
  · exact apart hc hd hne.symm h.swap
  · exact apart hd hc hne h.swap

/-- Where each place has one parent, it is found once below a place. -/
theorem nodup_descend (hnodup : ∀ i, (children i).Nodup) (i : ℕ) : (descend children i).Nodup := by
  induction i using Nat.strong_induction_on with
  | _ i ih =>
    rw [descend_eq hlt, List.nodup_cons, List.nodup_flatMap]
    refine ⟨fun hmem => ?_, fun c hc => ih c (hlt i c hc), ?_⟩
    · obtain ⟨c, hc, hi⟩ := List.mem_flatMap.1 hmem
      have := le_of_reaches hlt ((mem_descend hlt).1 hi)
      have := hlt i c hc
      omega
    · exact (hnodup i).imp_of_mem fun hc hd hne => disjoint_descend hlt hone hc hd hne

end

/-! ### Forests -/

theorem childrenOf_of_getElem? {node : Node} (h : arena[i]? = some node) :
    arena.childrenOf i = node.children := by
  simp [childrenOf, h]

theorem lt_length_of_mem_childrenOf (h : c ∈ arena.childrenOf i) : i < arena.length := by
  by_contra hi
  rw [childrenOf, List.getElem?_eq_none (Nat.le_of_not_lt hi)] at h
  simp at h

/-- Children are in front of their parents, and each is in one child list and only once. -/
structure IsForest (arena : Arena) : Prop where
  child_lt : ∀ i, ∀ c ∈ arena.childrenOf i, c < i
  nodup : (arena.flatMap (·.children)).Nodup

namespace IsForest

theorem lt_length (h : arena.IsForest) (hc : c ∈ arena.childrenOf i) : c < arena.length :=
  (h.child_lt i c hc).trans (lt_length_of_mem_childrenOf hc)

theorem nodup_childrenOf (h : arena.IsForest) (i : ℕ) : (arena.childrenOf i).Nodup := by
  cases hi : arena[i]? with
  | none => simp [childrenOf, hi]
  | some node =>
    rw [childrenOf_of_getElem? hi]
    exact (List.nodup_flatMap.1 h.nodup).1 node (List.mem_of_getElem? hi)

/-- Each place has one parent. -/
theorem eq_of_mem (h : arena.IsForest) (hi : c ∈ arena.childrenOf i) (hj : c ∈ arena.childrenOf j) :
    i = j := by
  have hpair := List.pairwise_iff_getElem.1 (List.nodup_flatMap.1 h.nodup).2
  have hli := lt_length_of_mem_childrenOf hi
  have hlj := lt_length_of_mem_childrenOf hj
  rw [childrenOf_of_getElem? (List.getElem?_eq_getElem hli)] at hi
  rw [childrenOf_of_getElem? (List.getElem?_eq_getElem hlj)] at hj
  rcases lt_trichotomy i j with hij | hij | hij
  · exact absurd hj (hpair i j hli hlj hij hi)
  · exact hij
  · exact absurd hi (hpair j i hlj hli hij hj)

theorem count_eq_one (h : arena.IsForest) (hc : c ∈ arena.childrenOf i) :
    (arena.flatMap (·.children)).count c = 1 := by
  have hlength := lt_length_of_mem_childrenOf hc
  rw [childrenOf_of_getElem? (List.getElem?_eq_getElem hlength)] at hc
  exact List.count_eq_one_of_mem h.nodup
    (List.mem_flatMap.2 ⟨_, List.getElem_mem hlength, hc⟩)

theorem lt_length_of_reaches (h : arena.IsForest) (hroot : root < arena.length)
    (hi : Reaches arena.childrenOf root i) : i < arena.length :=
  (le_of_reaches h.child_lt hi).trans_lt hroot

theorem nodup_descend (h : arena.IsForest) (i : ℕ) : (descend arena.childrenOf i).Nodup :=
  Arena.nodup_descend h.child_lt (fun _ _ _ => h.eq_of_mem) h.nodup_childrenOf i

/-- No more places are below a place than there are nodes. -/
theorem length_descend_le (h : arena.IsForest) (hroot : root < arena.length) :
    (descend arena.childrenOf root).length ≤ arena.length := by
  have hsub : descend arena.childrenOf root ⊆ List.range arena.length := fun i hi =>
    List.mem_range.2 (h.lt_length_of_reaches hroot ((mem_descend h.child_lt).1 hi))
  simpa using (h.nodup_descend root).subperm hsub |>.length_le

end IsForest

/-! ### Walks -/

/-- The parts of a list are shown one after the other. -/
theorem exists_mapM_flatten {f : ℕ → Option (List (ℕ × ℕ))} {g : ℕ → List ℕ} {places : List ℕ}
    (h : ∀ c ∈ places, ∃ visits, f c = some visits ∧ visits.map Prod.snd = g c) :
    ∃ parts, places.mapM f = some parts ∧ parts.flatten.map Prod.snd = places.flatMap g := by
  induction places with
  | nil => exact ⟨[], rfl, rfl⟩
  | cons c places ih =>
    obtain ⟨⟨visits, hvisits, heq⟩, hplaces⟩ := List.forall_mem_cons.1 h
    obtain ⟨parts, hparts, hflat⟩ := ih hplaces
    refine ⟨visits :: parts, by simp [hvisits, hparts], ?_⟩
    rw [List.flatten_cons, List.map_append, heq, hflat, List.flatMap_cons]

section

variable (hlt : ∀ i, ∀ c ∈ arena.childrenOf i, c < i)

include hlt

theorem preorderFrom_eq {steps : ℕ} {stack : List ℕ} (hstack : ∀ i ∈ stack, i < arena.length)
    (hsteps : (stack.flatMap (descend arena.childrenOf)).length ≤ steps) :
    arena.preorderFrom steps stack = some (stack.flatMap (descend arena.childrenOf)) := by
  induction steps generalizing stack with
  | zero =>
    cases stack with
    | nil => rfl
    | cons i stack =>
      rw [List.flatMap_cons, descend_eq hlt] at hsteps
      simp at hsteps
  | succ steps ih =>
    cases stack with
    | nil => rfl
    | cons i stack =>
      obtain ⟨hi, hstack⟩ := List.forall_mem_cons.1 hstack
      have hnode := List.getElem?_eq_getElem hi
      have hbelow : (arena[i].children ++ stack).flatMap (descend arena.childrenOf) =
          (arena.childrenOf i).flatMap (descend arena.childrenOf) ++
            stack.flatMap (descend arena.childrenOf) := by
        rw [List.flatMap_append, childrenOf_of_getElem? hnode]
      rw [List.flatMap_cons, descend_eq hlt] at hsteps ⊢
      have hvalid : ∀ c ∈ arena[i].children ++ stack, c < arena.length := by
        refine List.forall_mem_append.2 ⟨fun c hc => ?_, hstack⟩
        rw [← childrenOf_of_getElem? hnode] at hc
        exact (hlt i c hc).trans hi
      have hrest := ih hvalid (by rw [hbelow]; simpa using hsteps)
      simp only [preorderFrom, hnode, hrest, hbelow]
      rfl

theorem visitsFrom_spec {fuel : ℕ} (hfuel : i < fuel) (hi : i < arena.length) (depth : ℕ) :
    ∃ visits, arena.visitsFrom fuel depth i = some visits ∧
      visits.map Prod.snd = descend arena.childrenOf i := by
  induction fuel generalizing i depth with
  | zero => exact absurd hfuel (Nat.not_lt_zero i)
  | succ fuel ih =>
    have hnode := List.getElem?_eq_getElem hi
    have hbelow : ∀ c ∈ arena[i].children, ∃ visits,
        arena.visitsFrom fuel (depth + 1) c = some visits ∧
          visits.map Prod.snd = descend arena.childrenOf c := by
      intro c hc
      rw [← childrenOf_of_getElem? hnode] at hc
      have hci := hlt i c hc
      exact ih (by omega) (hci.trans hi) (depth + 1)
    obtain ⟨parts, hparts, hflat⟩ := exists_mapM_flatten hbelow
    refine ⟨(depth, i) :: parts.flatten, by simp [visitsFrom, hnode, hparts], ?_⟩
    rw [List.map_cons, hflat, descend_eq hlt, childrenOf_of_getElem? hnode]

end

/-! ### Entering parents -/

/-- The arena before parents have been entered. -/
def unlinked (arena : Arena) : Arena :=
  arena.map fun node => { node with parent := none }

theorem unlinked_setParent (i c : ℕ) : (setParent i arena c).unlinked = arena.unlinked := by
  refine List.ext_getElem? fun j => ?_
  simp only [unlinked, setParent, List.getElem?_map, List.getElem?_modify]
  cases arena[j]? with
  | none => simp
  | some node => by_cases hcj : c = j <;> simp [hcj]

theorem unlinked_foldl_setParent (places : List ℕ) :
    (places.foldl (setParent i) arena).unlinked = arena.unlinked := by
  induction places generalizing arena with
  | nil => rfl
  | cons c places ih => rw [List.foldl_cons, ih, unlinked_setParent]

/-- Parents apart, the nodes are the same. -/
theorem childrenOf_eq_of_unlinked (h : arena'.unlinked = arena.unlinked) :
    arena'.childrenOf = arena.childrenOf := by
  have hmap (arena : Arena) (i : ℕ) :
      arena.childrenOf i = (arena.unlinked[i]?.map (·.children)).getD [] := by
    rw [childrenOf, unlinked, List.getElem?_map, Option.map_map]
    rfl
  funext i
  rw [hmap, h, ← hmap]

theorem length_eq_of_unlinked (h : arena'.unlinked = arena.unlinked) :
    arena'.length = arena.length := by
  simpa [unlinked] using congrArg List.length h

theorem parentOf?_setParent (hc : c < arena.length) :
    (setParent i arena c).parentOf? j = if j = c then some i else arena.parentOf? j := by
  simp only [parentOf?, setParent, List.getElem?_modify]
  by_cases hjc : j = c
  · subst hjc
    simp [List.getElem?_eq_getElem hc]
  · simp [hjc, Ne.symm hjc]

theorem parentOf?_foldl_setParent {places : List ℕ} (h : ∀ c ∈ places, c < arena.length) :
    (places.foldl (setParent i) arena).parentOf? j =
      if j ∈ places then some i else arena.parentOf? j := by
  induction places generalizing arena with
  | nil => simp
  | cons c places ih =>
    obtain ⟨hc, hplaces⟩ := List.forall_mem_cons.1 h
    have hlength : (setParent i arena c).length = arena.length :=
      length_eq_of_unlinked (unlinked_setParent i c)
    rw [List.foldl_cons, ih (fun d hd => hlength ▸ hplaces d hd), parentOf?_setParent hc]
    by_cases hj : j ∈ places <;> by_cases hjc : j = c <;> simp [hj, hjc]

theorem IsForest.of_unlinked (h : arena.IsForest) (heq : arena'.unlinked = arena.unlinked) :
    arena'.IsForest where
  child_lt := by
    rw [childrenOf_eq_of_unlinked heq]
    exact h.child_lt
  nodup := by
    have hflat (arena : Arena) :
        arena.flatMap (·.children) = arena.unlinked.flatMap (·.children) := by
      rw [unlinked, List.flatMap_map]
    rw [hflat, heq, ← hflat]
    exact h.nodup

/-- Below the places on a stack, all children get their parents, and nothing else is changed. -/
structure Linked (below : List ℕ) (arena arena' : Arena) : Prop where
  unlinked : arena'.unlinked = arena.unlinked
  of_mem : ∀ i ∈ below, ∀ c ∈ arena.childrenOf i, arena'.parentOf? c = some i
  of_not_mem : ∀ c, (∀ i ∈ below, c ∉ arena.childrenOf i) → arena'.parentOf? c = arena.parentOf? c

theorem linkFrom_spec (h : arena.IsForest) {steps : ℕ} {stack : List ℕ}
    (hstack : ∀ i ∈ stack, i < arena.length)
    (hsteps : (stack.flatMap (descend arena.childrenOf)).length ≤ steps) :
    ∃ arena', linkFrom steps stack arena = some arena' ∧
      Linked (stack.flatMap (descend arena.childrenOf)) arena arena' := by
  induction steps generalizing stack arena with
  | zero =>
    cases stack with
    | nil => exact ⟨arena, rfl, rfl, by simp, fun _ _ => rfl⟩
    | cons i stack =>
      rw [List.flatMap_cons, descend_eq h.child_lt] at hsteps
      simp at hsteps
  | succ steps ih =>
    cases stack with
    | nil => exact ⟨arena, rfl, rfl, by simp, fun _ _ => rfl⟩
    | cons i stack =>
      obtain ⟨hi, hstack⟩ := List.forall_mem_cons.1 hstack
      have hnode := List.getElem?_eq_getElem hi
      have hvalid : ∀ c ∈ arena[i].children, c < arena.length := fun c hc =>
        h.lt_length (childrenOf_of_getElem? hnode ▸ hc)
      have hfilter : arena[i].children.filter (· < arena.length) = arena[i].children :=
        List.filter_eq_self.2 fun c hc => decide_eq_true (hvalid c hc)
      have heq : (arena[i].children.foldl (setParent i) arena).unlinked = arena.unlinked :=
        unlinked_foldl_setParent _
      have hchildren := childrenOf_eq_of_unlinked heq
      have hlength := length_eq_of_unlinked heq
      -- the children come on the stack in the opposite order
      have hperm : ((arena[i].children.reverse ++ stack).flatMap (descend arena.childrenOf)).Perm
          ((arena.childrenOf i).flatMap (descend arena.childrenOf) ++
            stack.flatMap (descend arena.childrenOf)) := by
        rw [List.flatMap_append, childrenOf_of_getElem? hnode]
        exact ((List.reverse_perm _).flatMap_right _).append_right _
      rw [List.flatMap_cons, descend_eq h.child_lt] at hsteps ⊢
      have hstack' : ∀ c ∈ arena[i].children.reverse ++ stack,
          c < (arena[i].children.foldl (setParent i) arena).length := by
        rw [hlength]
        exact List.forall_mem_append.2 ⟨fun c hc => hvalid c (List.mem_reverse.1 hc), hstack⟩
      have hsteps' : ((arena[i].children.reverse ++ stack).flatMap
          (descend (arena[i].children.foldl (setParent i) arena).childrenOf)).length ≤ steps := by
        rw [hchildren, hperm.length_eq]
        simpa using hsteps
      obtain ⟨arena', hlink, hlinked⟩ := ih (h.of_unlinked heq) hstack' hsteps'
      rw [hchildren] at hlinked
      refine ⟨arena', by simp only [linkFrom, hnode, hfilter, hlink],
        hlinked.unlinked.trans heq, fun j hj c hc => ?_, fun c hc => ?_⟩
      · by_cases hbelow : ∃ k ∈ (arena[i].children.reverse ++ stack).flatMap
            (descend arena.childrenOf), c ∈ arena.childrenOf k
        · obtain ⟨k, hk, hck⟩ := hbelow
          rw [h.eq_of_mem hc hck]
          exact hlinked.of_mem k hk c (hchildren ▸ hck)
        · -- the parent of `c` is the place that is looked at
          push Not at hbelow
          obtain rfl : j = i := by
            rw [List.cons_append, List.mem_cons] at hj
            exact hj.resolve_right fun hj => hbelow j (hperm.mem_iff.2 hj) hc
          rw [hlinked.of_not_mem c (hchildren ▸ hbelow), parentOf?_foldl_setParent hvalid,
            if_pos (childrenOf_of_getElem? hnode ▸ hc)]
      · rw [hlinked.of_not_mem c, parentOf?_foldl_setParent hvalid, if_neg]
        · rw [← childrenOf_of_getElem? hnode]
          exact hc i List.mem_cons_self
        · rw [hchildren]
          exact fun k hk => hc k (List.mem_cons_of_mem i (hperm.mem_iff.1 hk))

/-! ### Trees -/

/-- Below a place, an arena is a tree: children are in front of their parents, each place but the
topmost one is in one child list and only once, and its parent is entered. Walks come to an end; they
find each place once, parents in front of their children and sisters in their order. -/
structure IsTree (arena : Arena) (root : ℕ) : Prop where
  root_lt : root < arena.length
  child_lt : ∀ i, ∀ c ∈ arena.childrenOf i, c < i ∧ c < arena.length
  count_eq_one : ∀ c, Reaches arena.childrenOf root c → c ≠ root →
    (arena.flatMap (·.children)).count c = 1
  parentOf?_child : ∀ i, Reaches arena.childrenOf root i → ∀ c ∈ arena.childrenOf i,
    arena.parentOf? c = some i
  parentOf?_root : arena.parentOf? root = none
  walks : ∃ order visits, arena.preorder? root = some order ∧ arena.visits? root = some visits ∧
    visits.map Prod.snd = order ∧ order.Nodup ∧ (∀ i, i ∈ order ↔ Reaches arena.childrenOf root i) ∧
    ∀ i ∈ order, (i :: arena.childrenOf i).Sublist order

/-- The walks of a forest below a place. -/
theorem IsForest.walks (h : arena.IsForest) (hroot : root < arena.length) :
    ∃ order visits, arena.preorder? root = some order ∧ arena.visits? root = some visits ∧
      visits.map Prod.snd = order ∧ order.Nodup ∧
      (∀ i, i ∈ order ↔ Reaches arena.childrenOf root i) ∧
      ∀ i ∈ order, (i :: arena.childrenOf i).Sublist order := by
  have hstack : ∀ i ∈ [root], i < arena.length := by simpa using hroot
  have hsteps : ([root].flatMap (descend arena.childrenOf)).length ≤ arena.length + 1 := by
    simpa using (h.length_descend_le hroot).trans (Nat.le_succ _)
  have hpreorder := preorderFrom_eq h.child_lt hstack hsteps
  rw [List.flatMap_singleton] at hpreorder
  obtain ⟨visits, hvisits, hsnd⟩ :=
    visitsFrom_spec h.child_lt (hroot.trans (Nat.lt_succ_self _)) hroot 0
  exact ⟨_, visits, hpreorder, hvisits, hsnd, h.nodup_descend root,
    fun i => mem_descend h.child_lt,
    fun i hi => cons_sublist_descend h.child_lt ((mem_descend h.child_lt).1 hi)⟩

/-- Where the parents of a forest have been entered below a place that is no child, the arena is a
tree. -/
theorem IsForest.isTree_of_linked (h : arena.IsForest) (hroot : root < arena.length)
    (hfree : ∀ i, root ∉ arena.childrenOf i) (hparents : ∀ i, arena.parentOf? i = none)
    (hlinked : Linked (descend arena.childrenOf root) arena arena') : arena'.IsTree root := by
  have hforest := h.of_unlinked hlinked.unlinked
  have hchildren := childrenOf_eq_of_unlinked hlinked.unlinked
  have hroot' : root < arena'.length := (length_eq_of_unlinked hlinked.unlinked).symm ▸ hroot
  refine ⟨hroot', fun i c hc => ⟨hforest.child_lt i c hc, hforest.lt_length hc⟩,
    fun c hc hne => ?_, fun i hi c hc => ?_, ?_, hforest.walks hroot'⟩
  · rcases hc.cases_tail with rfl | ⟨i, -, hci⟩
    · exact absurd rfl hne
    · exact hforest.count_eq_one hci
  · rw [hchildren] at hi hc
    exact hlinked.of_mem i ((mem_descend h.child_lt).2 hi) c hc
  · rw [hlinked.of_not_mem root fun i _ => hfree i]
    exact hparents root

/-- The parents of a forest can be entered below a place that is no child. -/
theorem IsForest.exists_linkParents? (h : arena.IsForest) (hroot : root < arena.length)
    (hfree : ∀ i, root ∉ arena.childrenOf i) (hparents : ∀ i, arena.parentOf? i = none) :
    ∃ arena', arena.linkParents? root = some arena' ∧ arena'.unlinked = arena.unlinked ∧
      arena'.IsTree root := by
  have hstack : ∀ i ∈ [root], i < arena.length := by simpa using hroot
  have hsteps : ([root].flatMap (descend arena.childrenOf)).length ≤ arena.length + 1 := by
    simpa using (h.length_descend_le hroot).trans (Nat.le_succ _)
  obtain ⟨arena', hlink, hlinked⟩ := linkFrom_spec h hstack hsteps
  exact ⟨arena', hlink, hlinked.unlinked,
    h.isTree_of_linked hroot hfree hparents (by simpa using hlinked)⟩

end ExpectError.Arena
