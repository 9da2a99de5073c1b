import ExpectError.Proofs.LoadedBases

/-!
# Merged options

Options are put on top of others one by one, and an option that is there already keeps its place and
takes the later value. As long as every name stands in a configuration once, as it does in all that
are read, this is associative, and an option has the value that the last configuration with it
gives.

* `HasDistinctOptions`: every name stands in a configuration once;
* `hasDistinctOptions_of_ofText?`: so it does in all that are read;
* `onTopOf_assoc`, `merged_append`, `merged_flatMap`: merging is associative;
* `read_merged`, `option?_onTopOf`: what is in a merged configuration.
-/

namespace ExpectError

namespace Json

variable {name other : String} {value v : Value} {members own rest : List (String × Value)}

/-! ### Members -/

/-- Puts members into an object one by one. -/
def insertAll (own members : List (String × Value)) : List (String × Value) :=
  own.foldl (fun done (name, value) => insertMember name value done) members

theorem map_fst_insertMember (name : String) (value : Value) (members : List (String × Value)) :
    (insertMember name value members).map Prod.fst =
      if name ∈ members.map Prod.fst then members.map Prod.fst
      else members.map Prod.fst ++ [name] := by
  induction members with
  | nil => rfl
  | cons member members ih =>
    obtain ⟨n, v⟩ := member
    rw [insertMember]
    by_cases h : n = name
    · simp [h]
    · simp only [h, if_false, List.map_cons, ih, List.mem_cons, Ne.symm h, false_or]
      split <;> rfl

theorem nodup_insertMember (h : (members.map Prod.fst).Nodup) :
    ((insertMember name value members).map Prod.fst).Nodup := by
  rw [map_fst_insertMember]
  split
  next => exact h
  next hname => simpa using List.Nodup.concat hname h

theorem lookup_insertMember (other : String) :
    (insertMember name value members).lookup other =
      if other = name then some value else members.lookup other := by
  induction members with
  | nil =>
    by_cases h : other = name <;> simp [insertMember, List.lookup_cons, h, beq_eq_false_iff_ne.2]
  | cons member members ih =>
    obtain ⟨n, v⟩ := member
    rw [insertMember]
    by_cases hn : n = name
    · subst hn
      by_cases h : other = n <;> simp [List.lookup_cons, h, beq_eq_false_iff_ne.2]
    · rw [if_neg hn, List.lookup_cons, List.lookup_cons, ih]
      by_cases h : other = n
      · subst h
        simp [hn]
      · simp [beq_eq_false_iff_ne.2 h]

/-- Of two values for one name the second one stays. -/
theorem insertMember_insertMember :
    insertMember name value (insertMember name v members) = insertMember name value members := by
  induction members with
  | nil => simp [insertMember]
  | cons member members ih =>
    obtain ⟨n, w⟩ := member
    by_cases hn : n = name <;> simp [insertMember, hn, ih]

/-- Members of different names can change places if the first one is there already. -/
theorem insertMember_comm (hne : other ≠ name) (hmem : name ∈ members.map Prod.fst) :
    insertMember name value (insertMember other v members) =
      insertMember other v (insertMember name value members) := by
  induction members with
  | nil => cases hmem
  | cons member members ih =>
    obtain ⟨n, w⟩ := member
    by_cases hn : n = name
    · subst hn
      simp [insertMember, Ne.symm hne]
    · by_cases ho : n = other
      · subst ho
        simp [insertMember, hne]
      · have hrest := (List.mem_cons.1 hmem).resolve_left (Ne.symm hn)
        simp [insertMember, hn, ho, ih hrest]

theorem mem_insertMember (name : String) (value : Value) (members : List (String × Value)) :
    name ∈ (insertMember name value members).map Prod.fst := by
  rw [map_fst_insertMember]
  split <;> simp_all

theorem insertMember_insertAll (hown : name ∉ own.map Prod.fst)
    (hmem : name ∈ members.map Prod.fst) :
    insertMember name value (insertAll own members) =
      insertAll own (insertMember name value members) := by
  induction own generalizing members with
  | nil => rfl
  | cons member own ih =>
    obtain ⟨n, v⟩ := member
    obtain ⟨hne, hown⟩ := not_or.1 (List.mem_cons.not.1 hown)
    have hnext : name ∈ (insertMember n v members).map Prod.fst := by
      rw [map_fst_insertMember]
      split
      · exact hmem
      · exact List.mem_append_left _ hmem
    change insertMember name value (insertAll own (insertMember n v members)) = _
    rw [ih hown hnext, insertMember_comm (Ne.symm hne) hmem]
    rfl

/-- A member that is put into an object before that is put into another one may as well be put there
last. -/
theorem insertAll_insertMember (h : (own.map Prod.fst).Nodup) :
    insertAll (insertMember name value own) members =
      insertMember name value (insertAll own members) := by
  induction own generalizing members with
  | nil => rfl
  | cons member own ih =>
    obtain ⟨n, v⟩ := member
    obtain ⟨hfirst, hown⟩ := List.nodup_cons.1 h
    rw [insertMember]
    split
    next heq =>
      -- The name is at the front of `own`, and in the object once that member has been put in.
      subst heq
      change insertAll own (insertMember n value members) =
        insertMember n value (insertAll own (insertMember n v members))
      rw [insertMember_insertAll hfirst (mem_insertMember _ _ _), insertMember_insertMember]
    next => exact ih hown

theorem insertAll_insertAll (h : (own.map Prod.fst).Nodup) :
    insertAll (insertAll rest own) members = insertAll rest (insertAll own members) := by
  induction rest generalizing own with
  | nil => rfl
  | cons member rest ih =>
    change insertAll (insertAll rest (insertMember member.1 member.2 own)) members = _
    rw [ih (nodup_insertMember h), insertAll_insertMember h]
    rfl

theorem nodup_insertAll (h : (members.map Prod.fst).Nodup) :
    ((insertAll own members).map Prod.fst).Nodup := by
  induction own generalizing members with
  | nil => exact h
  | cons member own ih => exact ih (nodup_insertMember h)

/-- The members that are put into an object win. -/
theorem lookup_insertAll (h : (own.map Prod.fst).Nodup) (name : String) :
    (insertAll own members).lookup name = (own.lookup name).or (members.lookup name) := by
  induction own generalizing members with
  | nil => simp [insertAll]
  | cons member own ih =>
    obtain ⟨n, v⟩ := member
    obtain ⟨hfirst, hown⟩ := List.nodup_cons.1 h
    change (insertAll own (insertMember n v members)).lookup name = _
    rw [ih hown, lookup_insertMember, List.lookup_cons]
    by_cases heq : name = n
    · subst heq
      have hnone : own.lookup name = none := List.lookup_eq_none_iff.2 fun member hmember => by
        have hne : name ≠ member.1 := by
          rintro rfl
          exact hfirst (List.mem_map.2 ⟨member, hmember, rfl⟩)
        simpa using hne
      simp [hnone]
    · simp [heq, beq_eq_false_iff_ne.2 heq]

/-! ### Objects that are read -/

/-- Every name stands in an object once. -/
theorem nodup_of_readValue {kept : Bool} {steps depth : ℕ} {cs rest : List Char}
    (h : readValue kept steps depth cs = some (.object members, rest)) :
    (members.map Prod.fst).Nodup := by
  cases steps with
  | zero => simp [readValue] at h
  | succ steps =>
    rw [readValue] at h
    split at h
    · simp at h
    · split at h
      · cases h
      · simp at h
    · split at h
      · cases h
      · obtain ⟨⟨written, rest⟩, -, heq⟩ := Option.map_eq_some_iff.1 h
        cases heq
        exact nodup_insertAll .nil
    all_goals simp at h

end Json

namespace Config

open Json

/-- Every name stands among the options once. -/
def HasDistinctOptions (config : Config) : Prop :=
  ∀ options ∈ config.options, (options.map Prod.fst).Nodup

variable {config base own result : Config} {configs more : List Config} {cs rest : List Char}

/-! ### Configurations that are read -/

theorem HasDistinctOptions.set? (h : config.HasDistinctOptions) {field : Field} {value : Value}
    (hvalue : ∀ members, value = .object members → (members.map Prod.fst).Nodup)
    (hset : config.set? field value = some result) : result.HasDistinctOptions := by
  have hlist {update : List String → Config}
      (hsome : (do return update (← strings? value) : Option Config) = some result)
      (hupdate : ∀ list, (update list).options = config.options) :
      result.HasDistinctOptions := by
    obtain ⟨list, -, heq⟩ := Option.bind_eq_some_iff.1 hsome
    cases heq
    intro options hoptions
    exact h options (by rwa [hupdate] at hoptions)
  rw [Config.set?.eq_def] at hset
  split at hset
  next => cases hset; exact h
  next => cases hset; exact h
  next => exact hlist hset fun _ => rfl
  next =>
    cases hset
    rintro _ ⟨⟩
    exact hvalue _ rfl
  next => cases hset
  all_goals exact hlist hset fun _ => rfl

theorem HasDistinctOptions.of_keepValue (h : config.HasDistinctOptions) {field : Field}
    {value : Value} (hread : keepValue 1 cs = some (value, rest))
    (hset : config.set? field value = some result) : result.HasDistinctOptions :=
  h.set? (fun _ heq => nodup_of_readValue (heq ▸ hread)) hset

/-- Behind a comma, or where none is asked for, reading goes on. -/
theorem exists_of_comma {α : Type} {isFirst : Bool} {next : List Char → Option α} {a : α}
    (h : (if isFirst = true then some cs >>= next else dropWord? [','] cs >>= next) = some a) :
    ∃ cs, next cs = some a := by
  split at h
  · exact ⟨cs, h⟩
  · obtain ⟨found, -, h⟩ := Option.bind_eq_some_iff.1 h
    exact ⟨found, h⟩

theorem HasDistinctOptions.readObject (h : config.HasDistinctOptions) {steps : ℕ} {isFirst : Bool}
    {seen : List Field}
    (hread : Config.readObject steps isFirst seen config cs = some (result, rest)) :
    result.HasDistinctOptions := by
  induction steps generalizing isFirst seen config cs with
  | zero => cases hread
  | succ steps ih =>
    rw [Config.readObject] at hread
    split at hread
    next => cases hread; exact h
    next =>
      obtain ⟨_, hread⟩ := exists_of_comma hread
      obtain ⟨_, -, hread⟩ := Option.bind_eq_some_iff.1 hread
      obtain ⟨⟨name, _⟩, -, hread⟩ := Option.bind_eq_some_iff.1 hread
      obtain ⟨_, -, hread⟩ := Option.bind_eq_some_iff.1 hread
      dsimp only at hread
      -- a member without a field is skipped, a field that was seen is refused, others are kept
      split at hread
      next =>
        obtain ⟨_, -, hread⟩ := Option.bind_eq_some_iff.1 hread
        exact ih h hread
      next field _ =>
        split at hread
        next => cases hread
        next =>
          obtain ⟨⟨value, _⟩, hvalue, hread⟩ := Option.bind_eq_some_iff.1 hread
          obtain ⟨next, hset, hread⟩ := Option.bind_eq_some_iff.1 hread
          exact ih (h.of_keepValue hvalue hset) hread

theorem HasDistinctOptions.readList (h : config.HasDistinctOptions) {isFirst : Bool}
    {fields : List Field} (hread : Config.readList isFirst config fields cs = some (result, rest)) :
    result.HasDistinctOptions := by
  induction fields generalizing isFirst config cs with
  | nil =>
    obtain ⟨_, -, heq⟩ := Option.map_eq_some_iff.1 hread
    cases heq
    exact h
  | cons field fields ih =>
    rw [Config.readList] at hread
    split at hread
    next => cases hread; exact h
    next =>
      obtain ⟨_, hread⟩ := exists_of_comma hread
      obtain ⟨⟨value, _⟩, hvalue, hread⟩ := Option.bind_eq_some_iff.1 hread
      obtain ⟨next, hset, hread⟩ := Option.bind_eq_some_iff.1 hread
      exact ih (h.of_keepValue hvalue hset) hread

theorem hasDistinctOptions_empty : HasDistinctOptions {} := by
  rintro _ ⟨⟩

/-- Every name stands among the options of what is read once. -/
theorem hasDistinctOptions_of_ofText? {source : String} (h : ofText? source = some config) :
    config.HasDistinctOptions := by
  obtain ⟨⟨read, rest⟩, hread, h⟩ := Option.bind_eq_some_iff.1 h
  dsimp only at h
  split at h
  next =>
    cases h
    rw [readConfig] at hread
    split at hread
    next => exact hasDistinctOptions_empty.readObject hread
    next => exact hasDistinctOptions_empty.readList hread
    next => cases hread
  next => cases h

/-! ### Merging -/

theorem options_onTopOf (own base : Config) :
    (own.onTopOf base).options =
      match base.options, own.options with
      | some options, some own => some (insertAll own options)
      | options, own => own <|> options := rfl

theorem HasDistinctOptions.onTopOf (h : own.HasDistinctOptions) (hbase : base.HasDistinctOptions) :
    (own.onTopOf base).HasDistinctOptions := by
  intro options hoptions
  rw [options_onTopOf] at hoptions
  cases hb : base.options with
  | none =>
    rw [hb] at hoptions
    exact h options (by simpa using hoptions)
  | some below =>
    cases ho : own.options with
    | none =>
      rw [hb, ho] at hoptions
      exact hbase options (by simpa [hb] using hoptions)
    | some above =>
      rw [hb, ho] at hoptions
      cases hoptions
      exact nodup_insertAll (hbase below hb)

/-- Merging is associative. -/
theorem onTopOf_assoc (h : base.HasDistinctOptions) (own bottom : Config) :
    (own.onTopOf base).onTopOf bottom = own.onTopOf (base.onTopOf bottom) := by
  have hoptions : ((own.onTopOf base).onTopOf bottom).options =
      (own.onTopOf (base.onTopOf bottom)).options := by
    simp only [options_onTopOf]
    cases hbase : base.options with
    | none => cases own.options <;> cases bottom.options <;> rfl
    | some options =>
      cases own.options with
      | none => cases bottom.options <;> rfl
      | some above =>
        cases bottom.options with
        | none => rfl
        | some below => exact congrArg some (insertAll_insertAll (h options hbase))
  have hentries (own base bottom : Option (List String)) :
      ((own <|> base) <|> bottom) = (own <|> (base <|> bottom)) := by
    cases own <;> rfl
  exact (Config.mk.injEq ..).mpr
    ⟨rfl, hoptions, hentries _ _ _, hentries _ _ _, hentries _ _ _⟩

/-! ### Many configurations -/

theorem merged_concat (configs : List Config) (own : Config) :
    merged (configs ++ [own]) = own.onTopOf (merged configs) :=
  List.foldl_concat ..

theorem bases_merged (configs : List Config) : (merged configs).bases = none := by
  cases configs using List.reverseRecOn with
  | nil => rfl
  | append_singleton configs own => rw [merged_concat]; rfl

theorem hasDistinctOptions_merged (h : ∀ config ∈ configs, config.HasDistinctOptions) :
    (merged configs).HasDistinctOptions := by
  induction configs using List.reverseRecOn with
  | nil => exact hasDistinctOptions_empty
  | append_singleton configs own ih =>
    obtain ⟨hconfigs, hown⟩ := List.forall_mem_append.1 h
    rw [merged_concat]
    exact (hown own List.mem_cons_self).onTopOf (ih hconfigs)

theorem empty_onTopOf (h : base.bases = none) : onTopOf {} base = base := by
  obtain ⟨bases, options, includes, excludes, files⟩ := base
  cases h
  cases options <;> rfl

/-- What is merged by itself can be merged with the rest as well. -/
theorem merged_append (h : ∀ config ∈ more, config.HasDistinctOptions) :
    merged (configs ++ more) = (merged more).onTopOf (merged configs) := by
  induction more using List.reverseRecOn with
  | nil => rw [List.append_nil, merged_nil, empty_onTopOf (bases_merged configs)]
  | append_singleton more own ih =>
    obtain ⟨hmore, -⟩ := List.forall_mem_append.1 h
    rw [← List.append_assoc, merged_concat, ih hmore, merged_concat,
      onTopOf_assoc (hasDistinctOptions_merged hmore)]

theorem merged_flatMap {α : Type} {l : List α} {parts : α → List Config}
    (h : ∀ a ∈ l, ∀ config ∈ parts a, config.HasDistinctOptions) :
    merged (l.map fun a => merged (parts a)) = merged (l.flatMap parts) := by
  induction l using List.reverseRecOn with
  | nil => rfl
  | append_singleton l a ih =>
    obtain ⟨hl, ha⟩ := List.forall_mem_append.1 h
    rw [List.map_append, List.map_singleton, merged_concat, ih hl, List.flatMap_append,
      List.flatMap_singleton, merged_append (ha a List.mem_cons_self)]

/-- If the upper one of two configurations decides, or else the lower one, then the last one of many
does that says anything. -/
theorem read_merged {α β : Type} {l : List α} {part : α → Config} {read : Config → Option β}
    {value : α → Option β} (hempty : read {} = none)
    (honTopOf : ∀ own base : Config, own.HasDistinctOptions →
      read (own.onTopOf base) = (read own).or (read base))
    (h : ∀ a ∈ l, (part a).HasDistinctOptions ∧ read (part a) = value a) :
    read (merged (l.map part)) = l.reverse.findSome? value := by
  induction l using List.reverseRecOn with
  | nil => exact hempty
  | append_singleton l a ih =>
    obtain ⟨hl, ha⟩ := List.forall_mem_append.1 h
    obtain ⟨hdistinct, hread⟩ := ha a List.mem_cons_self
    rw [List.map_append, List.map_singleton, merged_concat, honTopOf (part a) _ hdistinct, ih hl,
      hread, List.reverse_append, List.reverse_singleton, List.singleton_append,
      List.findSome?_cons]
    cases value a <;> rfl

theorem option?_onTopOf (h : own.HasDistinctOptions) (base : Config) (name : String) :
    (own.onTopOf base).option? name = (own.option? name).or (base.option? name) := by
  rw [option?, option?, option?, options_onTopOf]
  cases ho : own.options with
  | none => cases base.options <;> rfl
  | some above =>
    cases base.options with
    | none => simp
    | some below => exact lookup_insertAll (h above ho) name

end Config

end ExpectError
