import ExpectError.Project.Config
import ExpectError.Proofs.JsonSpacing

/-!
# Comments and trailing commas in a configuration

A configuration is read from a text without its comments and trailing commas. What is left of a
relaxed text is a plain one with the tokens of the value that it is the text of, and plain texts
with the same tokens are the same configuration.

* `alike_readObject`, `alike_readList`: spaces between the tokens of a configuration;
* `ofText?_relaxed`: a relaxed text is the same configuration as a plain one.
-/

namespace ExpectError.Config

open Json

variable {isFirst : Bool} {steps bound : ℕ} {seen : List Field} {config : Config}
  {cs other : List Char}

/-- What a value does to a configuration before the rest is read. -/
theorem alike_set? {value : Value} {field : Field} {higher : ℕ}
    {f g : Config → Option (Config × List Char)}
    (h : ∀ config, Alike higher (f config) (g config)) :
    Alike higher ((config.set? field value).bind f) ((config.set? field value).bind g) := by
  cases config.set? field value with
  | none => exact .refused
  | some config => exact h config

theorem readObject_closed {rest : List Char} (h : dropSpaces cs = '\x7d' :: rest) :
    readObject (steps + 1) isFirst seen config cs = some (config, rest) := by
  simp only [readObject, h]

theorem readObject_of_ne (h : ∀ rest, dropSpaces cs ≠ '\x7d' :: rest) :
    readObject (steps + 1) isFirst seen config cs =
      (if isFirst then some (dropSpaces cs) else dropWord? [','] (dropSpaces cs)).bind fun cs =>
        (dropWord? ['"'] (dropSpaces cs)).bind fun cs => (readString true cs).bind fun name =>
          (dropWord? [':'] (dropSpaces name.2)).bind fun cs =>
            match Field.ofName? name.1 with
            | none => (skipValue cs).bind (readObject steps false seen config)
            | some field =>
              if seen.contains field then none
              else (keepValue 1 cs).bind fun value =>
                (config.set? field value.1).bind fun config =>
                  readObject steps false (field :: seen) config value.2 := by
  rw [readObject]
  split
  next rest heq => exact absurd heq (h rest)
  next => cases isFirst <;> rfl

/-- Spaces between tokens make no difference to the members of a configuration. -/
theorem alike_readObject (bound : ℕ) : ∀ isFirst steps steps' seen config cs other,
    bound ≤ steps → bound ≤ steps' → SameTokens bound cs other →
    Alike bound (readObject steps isFirst seen config cs)
      (readObject steps' isFirst seen config other) := by
  induction bound with
  | zero => exact fun _ _ _ _ _ _ _ _ _ h => absurd h not_sameTokens_zero
  | succ bound ih =>
    intro isFirst steps steps' seen config cs other hsteps hsteps' hsame
    obtain ⟨steps, rfl⟩ := Nat.exists_eq_succ_of_ne_zero (Nat.ne_zero_of_lt hsteps)
    obtain ⟨steps', rfl⟩ := Nat.exists_eq_succ_of_ne_zero (Nat.ne_zero_of_lt hsteps')
    rcases hsame.front.mark .closeBrace with ⟨rest, rest', hcs, hother, hrest⟩ | ⟨hcs, hother⟩
    · rw [readObject_closed hcs, readObject_closed hother]
      exact .read config (hrest.mono (Nat.le_succ _))
    · rw [readObject_of_ne hcs, readObject_of_ne hother]
      refine hsame.bind_separator isFirst fun cs other hsame => ?_
      refine hsame.bind_string true fun name cs other hsame => ?_
      refine (hsame.mono (Nat.le_succ _)).bind_mark .colon fun cs other hsame => ?_
      have hsteps := Nat.le_of_succ_le_succ hsteps
      have hsteps' := Nat.le_of_succ_le_succ hsteps'
      dsimp only
      cases Field.ofName? name with
      | none =>
        refine (hsame.mono (Nat.le_succ _)).bind_skipValue fun cs other hsame => ?_
        exact (ih _ _ _ _ _ _ _ hsteps hsteps' hsame).mono (Nat.le_succ _)
      | some field =>
        dsimp only
        split
        · exact .refused
        · refine (hsame.mono (Nat.le_succ _)).bind_keepValue 1 fun value cs other hsame => ?_
          refine alike_set? fun config => ?_
          exact (ih _ _ _ _ _ _ _ hsteps hsteps' hsame).mono (Nat.le_succ _)

theorem readList_closed {field : Field} {fields : List Field} {rest : List Char}
    (h : dropSpaces cs = ']' :: rest) :
    readList isFirst config (field :: fields) cs = some (config, rest) := by
  simp only [readList, h]

theorem readList_of_ne {field : Field} {fields : List Field}
    (h : ∀ rest, dropSpaces cs ≠ ']' :: rest) :
    readList isFirst config (field :: fields) cs =
      (if isFirst then some (dropSpaces cs) else dropWord? [','] (dropSpaces cs)).bind fun cs =>
        (keepValue 1 cs).bind fun value => (config.set? field value.1).bind fun config =>
          readList false config fields value.2 := by
  rw [readList]
  split
  next rest heq => exact absurd heq (h rest)
  next => cases isFirst <;> rfl

/-- Spaces between tokens make no difference to the values of a configuration. -/
theorem alike_readList (fields : List Field) : ∀ isFirst config bound cs other,
    SameTokens (bound + 1) cs other →
    Alike bound (readList isFirst config fields cs) (readList isFirst config fields other) := by
  induction fields with
  | nil =>
    intro isFirst config bound cs other hsame
    rw [readList, readList, Option.map_eq_bind, Option.map_eq_bind]
    exact hsame.bind_mark .closeBracket fun cs other hrest => .read config hrest
  | cons field fields ih =>
    intro isFirst config bound cs other hsame
    rcases hsame.front.mark .closeBracket with ⟨rest, rest', hcs, hother, hrest⟩ | ⟨hcs, hother⟩
    · rw [readList_closed hcs, readList_closed hother]
      exact .read config hrest
    · rw [readList_of_ne hcs, readList_of_ne hother]
      refine hsame.bind_separator isFirst fun cs other hsame => ?_
      refine hsame.bind_keepValue 1 fun value cs other hsame => ?_
      refine alike_set? fun config => ?_
      exact ih _ _ _ _ _ (hsame.mono (Nat.le_succ _))

theorem alike_readConfig (h : SameTokens (bound + 1) cs other) :
    Alike bound (readConfig cs) (readConfig other) := by
  rcases h.front.mark .openBrace with ⟨rest, rest', hcs, hother, hrest⟩ | ⟨hcs, hother⟩
  · simp only [readConfig, hcs, hother, Mark.char]
    obtain ⟨tokens, hlength, hseparable, hplain, hplain'⟩ := hrest
    have hle := hplain.length_le
    have hle' := hplain'.length_le
    refine (alike_readObject (tokens.length + 1) _ _ _ _ _ _ _ ?_ ?_
      ⟨tokens, Nat.lt_succ_self _, hseparable, hplain, hplain'⟩).mono hlength
    · rw [stepBound]
      omega
    · rw [stepBound]
      omega
  · rcases h.front.mark .openBracket with ⟨rest, rest', hcs, hother, hrest⟩ | ⟨hcs', hother'⟩
    · simp only [readConfig, hcs, hother, Mark.char]
      exact alike_readList _ _ _ _ _ _ (hrest.mono (Nat.le_succ _))
    · have hrefused {text : List Char}
          (hbrace : ∀ rest, dropSpaces text ≠ Mark.openBrace.char :: rest)
          (hbracket : ∀ rest, dropSpaces text ≠ Mark.openBracket.char :: rest) :
          readConfig text = none := by
        rw [readConfig]
        split
        next rest heq => exact absurd heq (hbrace rest)
        next rest heq => exact absurd heq (hbracket rest)
        next => rfl
      rw [hrefused hcs hcs', hrefused hother hother']
      exact .refused

/-- Texts that have the same tokens without comments and trailing commas are the same configuration,
or neither is one. -/
theorem ofText?_congr {text text' : String}
    (h : SameTokens (bound + 1) (dropTrailingCommas (stripComments text.toList))
      (dropTrailingCommas (stripComments text'.toList))) : ofText? text = ofText? text' := by
  have halike := alike_readConfig h
  rw [ofText?, ofText?]
  generalize readConfig _ = read at halike ⊢
  generalize readConfig _ = read' at halike ⊢
  cases halike with
  | refused => rfl
  | read config hrest =>
    have hempty := hrest.front.isEmpty_eq
    simp only [Option.bind_eq_bind, Option.bind_some, hempty]

/-! ### Relaxed texts -/

theorem dropTrailing_tokens_plain (value : ValueText) (isRelaxed : Bool) :
    dropTrailing (value.tokens isRelaxed) = value.tokens false := by
  have hdrop := dropTrailing_tokens isRelaxed value []
  rwa [List.append_nil, dropTrailing, List.append_nil] at hdrop

theorem separable_tokens_plain (value : ValueText) : Separable (value.tokens false) := by
  have hseparable := separable_tokens value .nil fun token h => by cases h
  rwa [List.append_nil] at hseparable

theorem unchanged_of_plain {value : ValueText} {cs : List Char}
    (h : Plain (value.tokens false) cs) : stripComments cs = cs ∧ dropTrailingCommas cs = cs :=
  ⟨stripComments_of_plain h, dropTrailingCommas_of_plain h (dropTrailing_tokens_plain value false)⟩

theorem ofText?_eq_of_relaxed {value : ValueText} {plain relaxed : String}
    (hplain : Plain (value.tokens false) plain.toList)
    (hrelaxed : Relaxed (value.tokens true) relaxed.toList) :
    ofText? relaxed = ofText? plain := by
  obtain ⟨hstrip, hdrop⟩ := unchanged_of_plain hplain
  have hleft := plain_dropTrailingCommas (plain_stripComments hrelaxed)
  rw [dropTrailing_tokens_plain] at hleft
  have hsame : SameTokens ((value.tokens false).length + 1)
      (dropTrailingCommas (stripComments relaxed.toList))
      (dropTrailingCommas (stripComments plain.toList)) := by
    rw [hstrip, hdrop]
    exact ⟨value.tokens false, Nat.lt_succ_self _, separable_tokens_plain value, hleft, hplain⟩
  exact ofText?_congr hsame

/-- An object with one member, a list of one string, and in a relaxed text a comma behind each of
them. -/
def listedFile : ValueText :=
  .object
    [([.raw 'f' (by decide), .raw 'i' (by decide), .raw 'l' (by decide), .raw 'e' (by decide),
      .raw 's' (by decide)], .array [.string [.raw 'a' (by decide)]] true)] true

theorem plain_listedFile :
    Plain (listedFile.tokens false) "\x7b\"files\":[\"a\"]\x7d".toList := by
  have htext : "\x7b\"files\":[\"a\"]\x7d".toList = ['\x7b', '"', 'f', 'i', 'l', 'e', 's', '"', ':',
      '[', '"', 'a', '"', ']', '\x7d'] := by decide
  rw [htext]
  exact .cons isSpaces_nil (.cons isSpaces_nil (.cons isSpaces_nil (.cons isSpaces_nil
    (.cons isSpaces_nil (.cons isSpaces_nil (.cons isSpaces_nil (.nil isSpaces_nil)))))))

theorem relaxed_listedFile :
    Relaxed (listedFile.tokens true) "\x7b\"files\":[\"a\",/*]*/],\x7d//".toList := by
  have htext : "\x7b\"files\":[\"a\",/*]*/],\x7d//".toList = ['\x7b', '"', 'f', 'i', 'l', 'e', 's',
      '"', ':', '[', '"', 'a', '"', ',', '/', '*', ']', '*', '/', ']', ',', '\x7d', '/', '/'] := by
    decide
  have hnone : IsRelaxedGap [] := ⟨[], by simp, rfl⟩
  have hcomment : IsRelaxedGap ['/', '*', ']', '*', '/'] :=
    ⟨[.blockComment [']'] (by decide)], by simp [Piece.IsGap], rfl⟩
  have hend : IsRelaxedEnd ['/', '/'] := ⟨[], .line [] (by decide), by simp, rfl⟩
  rw [htext]
  exact .cons hnone (.cons hnone (.cons hnone (.cons hnone (.cons hnone (.cons hnone
    (.cons hcomment (.cons hnone (.cons hnone (.nil hend)))))))))

/-- From a text of literals, comments and other characters, just the comments are removed, except
for their line feeds, and then just the commas in front of closing brackets. A JSON text stays as it
is, and comments between its tokens and commas behind last elements and members make no difference
to the configuration that it is. -/
theorem ofText?_relaxed :
    (∀ (pieces : List Piece) (last : LastComment),
      stripComments (textOf pieces ++ last.text) = textOf (pieces.flatMap Piece.kept) ∧
        dropTrailingCommas (textOf (pieces.flatMap Piece.kept)) =
          textOf (withoutTrailing (pieces.flatMap Piece.kept))) ∧
      (∀ (value : ValueText) (cs : List Char), Plain (value.tokens false) cs →
        stripComments cs = cs ∧ dropTrailingCommas cs = cs) ∧
      ∀ (value : ValueText) (plain relaxed : String), Plain (value.tokens false) plain.toList →
        Relaxed (value.tokens true) relaxed.toList → ofText? relaxed = ofText? plain := by
  refine ⟨fun pieces last => ⟨stripComments_textOf pieces last, ?_⟩,
    fun value cs h => unchanged_of_plain h, fun value plain relaxed => ofText?_eq_of_relaxed⟩
  refine dropTrailingCommas_textOf fun piece hpiece => ?_
  obtain ⟨other, -, hkept⟩ := List.mem_flatMap.1 hpiece
  exact Piece.not_isComment_of_mem_kept hkept

/-- A list with comments and trailing commas, and the same list without them. -/
theorem ofText?_relaxed_listedFile :
    Plain (listedFile.tokens false) "\x7b\"files\":[\"a\"]\x7d".toList ∧
      Relaxed (listedFile.tokens true) "\x7b\"files\":[\"a\",/*]*/],\x7d//".toList ∧
      ofText? "\x7b\"files\":[\"a\",/*]*/],\x7d//" = ofText? "\x7b\"files\":[\"a\"]\x7d" ∧
      (ofText? "\x7b\"files\":[\"a\"]\x7d").bind (·.files) = some ["a"] :=
  ⟨plain_listedFile, relaxed_listedFile,
    ofText?_relaxed.2.2 listedFile _ _ plain_listedFile relaxed_listedFile, by decide +kernel⟩

end ExpectError.Config
