import ExpectError.Proofs.Halting

/-!
# Reading a text comes to an end

Every production but those of markup comes to an end, at any depth and in any state of a text, as far
as the constructs do that it holds; so without markup reading a text comes to an end.

* `ends_produce`: the productions;
* `Bounds.suffice_of_produce`: from the productions to the rules of any depth;
* `SourceFile.exists_read?_standard`: the standard dialect reads every text.
-/

-- the promises of a production are found in as many steps as it has words
set_option synthInstance.maxSize 100000
set_option synthInstance.maxHeartbeats 200000

namespace ExpectError.Grammar

open Construct (Below)
open Text (byteLength)

variable {markup : Bool} {text : List Char} {cost : ℕ}

instance : Below .newExpression 1 := ⟨by decide⟩

instance : Below .typeOperator 1 := ⟨by decide⟩

instance : Below .leftHandSide 2 := ⟨by decide⟩

instance : Below .unary 3 := ⟨by decide⟩

instance (precedence : ℕ) : Below (.binary precedence) 4 := ⟨Nat.lt_succ_self 3⟩

instance : Below .assignment 5 := ⟨by decide⟩

instance : Below .bindingName 5 := ⟨by decide⟩

/-! ### Pieces that many constructs share -/

instance [Below .assignment cost] : Halts markup cost expression := by
  unfold expression
  infer_instance

instance [Below .assignment cost] : Halts markup cost wholeExpression := halts_allowIn

instance [Below .assignment cost] : Halts markup cost wholeAssignment := halts_allowIn

instance [Below .type cost] : Halts markup cost wholeType := halts_allowConditional

instance [Below .statement cost] : Halts markup cost statements := by
  unfold statements
  infer_instance

instance : Halts markup cost block := by unfold block; infer_instance

instance : Halts markup cost functionBlock := halts_allowAll

instance : Halts markup cost functionBlockOrSemicolon := by
  unfold functionBlockOrSemicolon
  infer_instance

section

variable {part : Reader Unit} {span whole : NodeKind}

instance [Halts markup cost part] : Steps markup cost (templateSpan part span) := by
  unfold templateSpan
  infer_instance

instance [Halts markup 8 part] : Moves markup cost (template part span whole) := by
  unfold template
  infer_instance

end

instance : Moves markup cost templateLiteral := by unfold templateLiteral; infer_instance

instance : Halts markup cost atPropertyName := by unfold atPropertyName; infer_instance

instance : Moves markup cost computedPropertyName := by unfold computedPropertyName; infer_instance

instance : Halts markup cost propertyName := by
  unfold propertyName
  refine .ofKind fun k => ?_
  split
  all_goals first
    | exact .inl inferInstance
    | exact .inr ⟨by decide, inferInstance⟩

instance : Halts markup cost nextIsPropertyNameOnLine := by
  unfold nextIsPropertyNameOnLine
  infer_instance

instance : Halts markup cost decorators := by unfold decorators; infer_instance

instance : Halts markup cost entityName := by unfold entityName; infer_instance

/-! ### Binding patterns -/

instance : Halts markup cost defaultValue := by unfold defaultValue; infer_instance

instance : Halts markup cost objectBindingElement := by
  unfold objectBindingElement
  infer_instance

instance : Moves markup cost objectBindingPattern := by unfold objectBindingPattern; infer_instance

instance [Below .bindingName cost] : Halts markup cost arrayBindingElement := by
  unfold arrayBindingElement
  infer_instance

instance : Moves markup cost arrayBindingPattern := by unfold arrayBindingPattern; infer_instance

instance : Halts markup cost bindingName := by
  unfold bindingName
  refine .ofKind fun k => ?_
  split
  all_goals first
    | exact .inl inferInstance
    | exact .inr ⟨by decide, inferInstance⟩

/-! ### Signatures -/

instance : MovesAt markup .lessThan cost typeArguments := by unfold typeArguments; infer_instance

instance : Halts markup cost typeArgumentsHere := by unfold typeArgumentsHere; infer_instance

instance : Halts markup cost typeArgumentsOnLine := by unfold typeArgumentsOnLine; infer_instance

instance : Halts markup cost typeParameter := by unfold typeParameter; infer_instance

instance : MovesAt markup .lessThan cost typeParameters := by unfold typeParameters; infer_instance

instance : Halts markup cost typeParametersHere := by unfold typeParametersHere; infer_instance

instance : MovesAt markup .lessThan cost typeParametersHere := by
  unfold typeParametersHere
  infer_instance

instance : StaysOrMoves markup cost typeParametersHere := by
  unfold typeParametersHere
  infer_instance

instance : Halts markup cost atParameterModifier := by unfold atParameterModifier; infer_instance

instance [Below .bindingName cost] : Halts markup cost parameterName := by
  unfold parameterName
  infer_instance

instance [Below .bindingName cost] : Halts markup cost parameter := by
  unfold parameter
  infer_instance

instance : Halts markup cost parameterList := by unfold parameterList; infer_instance

instance : MovesAt markup .openParen cost parameterList := by unfold parameterList; infer_instance

instance : Halts markup cost predicateSubject := by unfold predicateSubject; infer_instance

instance : Halts markup cost atIs := by unfold atIs; infer_instance

instance [Below .type cost] : Halts markup cost resultType := by unfold resultType; infer_instance

instance : Halts markup cost signature := by unfold signature; infer_instance

/-! ### Types -/

instance [Below .bindingName cost] : Halts markup cost skipParameterStart := by
  unfold skipParameterStart
  infer_instance

instance : Moves markup cost opensFunctionType := by unfold opensFunctionType; infer_instance

instance : Halts markup cost atFunctionType := by
  unfold atFunctionType
  refine .ofKind fun k => ?_
  split
  all_goals first
    | exact .inl inferInstance
    | exact .inr ⟨by decide, inferInstance⟩

instance : MovesAt markup .lessThan cost functionType := by unfold functionType; infer_instance

instance : MovesAt markup .newKeyword cost functionType := by unfold functionType; infer_instance

instance : MovesAt markup .openParen cost functionType := by unfold functionType; infer_instance

instance : MovesAt markup .abstractKeyword cost functionType := by
  unfold functionType
  infer_instance

/-- A function type starts at a token that is part of it. -/
theorem kind_of_atFunctionType {rules : Rules} {context : Context} {s t : State}
    (h : atFunctionType.run rules context s = some (true, t)) :
    s.scanner.kind ∈
      [TokenKind.lessThan, .newKeyword, .openParen, .abstractKeyword] := by
  obtain ⟨k, u, hk, hrun⟩ := run_bind_eq_some.1 h
  cases hk
  split at hrun
  case h_5 => cases (run_pure_eq_some.1 hrun).1
  all_goals
    rename_i hk
    rw [show s.scanner.kind = _ from hk]
    decide

instance {y : Reader Unit} [hy : Halts markup cost y] :
    Halts markup cost (atFunctionType >>= fun b => if b = true then functionType else y) where
  ends := by
    refine .branch kind_of_atFunctionType (fun _ => trivial) ?_
      (hy.ends.mono (fun _ _ _ _ => trivial) fun _ _ _ => id)
    intro text budget bounds wide hrules context s hc hs hn hle
    have moves : ∀ k, MovesAt markup k cost functionType → s.scanner.kind = k →
        Runs markup text (bounds.run functionType context) (wide.run functionType context) s
          fun _ _ => True :=
      fun k h hk => (h.ends hrules hc hs hk hle).mono fun _ _ _ _ => trivial
    simp only [List.mem_cons, List.not_mem_nil, or_false] at hn
    rcases hn.2 with hk | hk | hk | hk <;> exact moves _ inferInstance hk

section

variable {mark : TokenKind} {whole : NodeKind} {part : Reader Unit} [IsFalse (isEnd mark)]

instance [Halts markup cost part] [Halts markup 8 part] : Halts markup cost
    (joinedTypes mark whole part) := by
  unfold joinedTypes
  infer_instance

end

instance [Below .typeOperator cost] : Halts markup cost intersectionType := by
  unfold intersectionType
  infer_instance

instance [Below .typeOperator cost] : Halts markup cost unionType := by
  unfold unionType
  infer_instance

instance : Halts markup cost atConditionalRest := by unfold atConditionalRest; infer_instance

instance [Below .typeOperator cost] : Halts markup cost anyType := by unfold anyType; infer_instance

instance [Below .type cost] : Halts markup cost inferConstraint := by
  unfold inferConstraint
  infer_instance

instance : Moves markup cost inferType := by unfold inferType; infer_instance

instance : Halts markup cost typeReference := by unfold typeReference; infer_instance

instance : Moves markup cost importType := by unfold importType; infer_instance

instance : Moves markup cost typeQuery := by unfold typeQuery; infer_instance

instance : Halts markup cost atNamedTupleMember := by unfold atNamedTupleMember; infer_instance

instance [Below .type cost] : Halts markup cost tupleElement := by
  unfold tupleElement
  infer_instance

instance : Moves markup cost tupleType := by unfold tupleType; infer_instance

instance : Halts markup cost opensMappedType := by unfold opensMappedType; infer_instance

instance : Halts markup cost memberEnd := by unfold memberEnd; infer_instance

instance : Moves markup cost mappedType := by unfold mappedType; infer_instance

instance : Halts markup cost atIndexSignature := by unfold atIndexSignature; infer_instance

instance : Moves markup cost indexSignature := by unfold indexSignature; infer_instance

instance : Halts markup cost propertyOrMethodSignature := by
  unfold propertyOrMethodSignature
  infer_instance

instance : Halts markup cost nextIsNameOnLine := by unfold nextIsNameOnLine; infer_instance

instance (whole : NodeKind) : Halts markup cost (accessorSignature whole) := by
  unfold accessorSignature
  infer_instance

instance : Halts markup cost typeMember := by unfold typeMember; infer_instance

instance : Moves markup cost typeMemberOrSkip := by unfold typeMemberOrSkip; infer_instance

instance : Halts markup cost typeMembers := by unfold typeMembers; infer_instance

instance : Halts markup cost negativeLiteralType := by unfold negativeLiteralType; infer_instance

instance : Moves markup cost parenthesizedType := by unfold parenthesizedType; infer_instance

instance : Halts markup cost introducedType := by
  unfold introducedType
  refine .ofKind fun k => ?_
  split
  all_goals first
    | exact .inl inferInstance
    | exact .inr ⟨by decide, inferInstance⟩

instance : Halts markup cost primaryType := by unfold primaryType; infer_instance

instance : Moves markup cost bracketsBehindType := by unfold bracketsBehindType; infer_instance

instance : Halts markup cost bracketedType := by unfold bracketedType; infer_instance

instance : Halts markup cost typeOperator := by
  unfold typeOperator
  refine .ofKind fun k => ?_
  split
  all_goals first
    | exact .inl inferInstance
    | exact .inr ⟨by decide, inferInstance⟩

/-! ### Classes -/

instance : Halts markup cost nextIsFunctionOnLine := by unfold nextIsFunctionOnLine; infer_instance

instance : Halts markup cost skipModifier := by
  unfold skipModifier
  refine .ofKind fun k => ?_
  split <;> exact .inl inferInstance

instance : Halts markup cost modifiers := by unfold modifiers; infer_instance

instance : Halts markup cost namedMember := by unfold namedMember; infer_instance

instance (whole : NodeKind) : Halts markup cost (accessorDeclaration whole) := by
  unfold accessorDeclaration
  infer_instance

instance : Halts markup cost memberRest := by unfold memberRest; infer_instance

instance : Halts markup cost classMember := by unfold classMember; infer_instance

instance [Below .leftHandSide cost] : Halts markup cost heritageType := by
  unfold heritageType
  infer_instance

instance : Halts markup cost heritageClauses := by unfold heritageClauses; infer_instance

instance (whole : NodeKind) : Halts markup cost (classRest whole) := by
  unfold classRest
  infer_instance

/-! ### Expressions -/

instance : Halts markup cost atExpression := by unfold atExpression; infer_instance

instance [Below .assignment cost] : Halts markup cost spreadOrAssignment := by
  unfold spreadOrAssignment
  infer_instance

instance [Below .assignment cost] : Halts markup cost argumentList := by
  unfold argumentList
  infer_instance

instance : MovesAt markup .openParen cost argumentList := by unfold argumentList; infer_instance

instance : Halts markup cost confirmsTypeArguments := by
  unfold confirmsTypeArguments
  refine .ofKind fun k => ?_
  split <;> exact .inl inferInstance

instance : Halts markup cost typeArgumentsInExpression := by
  unfold typeArgumentsInExpression
  infer_instance

instance : Steps markup cost typeArgumentsInExpression := by
  unfold typeArgumentsInExpression
  infer_instance

instance : Moves markup cost elementAccess := by unfold elementAccess; infer_instance

instance [Below .assignment cost] : Halts markup cost callRest := by unfold callRest; infer_instance

instance : MovesAt markup .openParen cost callRest := by unfold callRest; infer_instance

instance : Halts markup cost propertyAccess := by unfold propertyAccess; infer_instance

instance : Moves markup cost taggedTemplate := by unfold taggedTemplate; infer_instance

instance [Below .assignment cost] : Halts markup cost optionalAccess := by
  unfold optionalAccess
  refine .ofKind fun k => ?_
  split
  all_goals first
    | exact .inl inferInstance
    | exact .inr ⟨by decide, inferInstance⟩

instance [Below .assignment cost] : Halts markup cost instantiated := by
  unfold instantiated
  refine .ofKind fun k => ?_
  split
  all_goals first
    | exact .inl inferInstance
    | exact .inr ⟨by decide, inferInstance⟩

instance (withCalls : Bool) : Steps markup cost (access withCalls) := by
  unfold access
  refine .ofKind fun k => ?_
  split
  all_goals first
    | exact .inl inferInstance
    | exact .inr (.inl inferInstance)
    | exact .inr (.inr ⟨by decide, inferInstance⟩)
    | split_ifs <;> first | exact .inl inferInstance | exact .inr (.inl inferInstance)

instance (withCalls : Bool) : Halts markup cost (accesses withCalls) := by
  unfold accesses
  infer_instance

instance : Moves markup cost parenthesizedExpression := by
  unfold parenthesizedExpression
  infer_instance

instance : Moves markup cost arrayLiteral := by unfold arrayLiteral; infer_instance

instance (whole : NodeKind) : Halts markup cost (objectFunction whole) := by
  unfold objectFunction
  infer_instance

instance : Halts markup cost objectProperty := by unfold objectProperty; infer_instance

instance : Halts markup cost objectMember := by unfold objectMember; infer_instance

instance : Moves markup cost objectLiteral := by unfold objectLiteral; infer_instance

instance : Halts markup cost functionExpression := by unfold functionExpression; infer_instance

instance : Halts markup cost classExpression := by unfold classExpression; infer_instance

instance [Below .newExpression cost] : Halts markup cost introducedExpression := by
  unfold introducedExpression
  refine .ofKind fun k => ?_
  split
  all_goals first
    | exact .inl inferInstance
    | exact .inr ⟨by decide, inferInstance⟩

instance [h : Below .newExpression cost] : Halts markup cost primaryExpression := by
  have hmarkup : Below (.markup false) cost := ⟨h.lt⟩
  unfold primaryExpression
  cases markup <;> infer_instance

instance [Below .newExpression cost] : Halts markup cost newOperand := by
  unfold newOperand
  infer_instance

instance [Below .newExpression cost] : Halts markup cost newCallee := by
  unfold newCallee
  infer_instance

instance : Moves markup cost newExpression := by unfold newExpression; infer_instance

instance [Below .newExpression cost] : Halts markup cost accessedExpression := by
  unfold accessedExpression
  infer_instance

instance [Below .newExpression cost] : Halts markup cost leftHandSide := by
  unfold leftHandSide
  infer_instance

instance (whole : NodeKind) : Moves markup cost (operatorAndOperand whole) := by
  unfold operatorAndOperand
  infer_instance

instance : Moves markup cost typeAssertion := by unfold typeAssertion; infer_instance

instance [Below .leftHandSide cost] : Halts markup cost postfixExpression := by
  unfold postfixExpression
  infer_instance

instance [Below .leftHandSide cost] : Halts markup cost assertedOrPostfix := by
  unfold assertedOrPostfix
  infer_instance

instance [Below .leftHandSide cost] : Halts markup cost unaryExpression := by
  unfold unaryExpression
  refine .ofKind fun k => ?_
  split
  all_goals first
    | exact .inl inferInstance
    | exact .inr ⟨by decide, inferInstance⟩

instance (operator : TokenKind) [Below .type cost] : Halts markup cost (assertedType operator) := by
  unfold assertedType
  infer_instance

instance (operator : TokenKind) : Halts markup cost (wrapTypeCheck operator) := by
  unfold wrapTypeCheck
  infer_instance

instance (operator : TokenKind) : StepsHere markup cost (typeCheckRest operator) := by
  unfold typeCheckRest
  infer_instance

instance (outer : ℕ) : Steps markup cost (operatorRest outer) := by
  unfold operatorRest
  refine @steps_bind _ _ _ _ _ inferInstance fun _ => .ofKind fun k => ?_
  by_cases hk : k = .endOfFile
  · exact .inl (by simp [hk, precedence]; infer_instance)
  · exact .inr (.inr ⟨hk, inferInstance⟩)

instance (outer : ℕ) [Below .unary cost] : Halts markup cost (binaryExpression outer) := by
  unfold binaryExpression
  infer_instance

instance : Halts markup cost plainParameter := by unfold plainParameter; infer_instance

instance : Halts markup cost opensGenericArrow := by unfold opensGenericArrow; infer_instance

instance : Halts markup cost atArrow := by unfold atArrow; infer_instance

/-- A word that can be a name is consumed as one. -/
theorem movesAt_identifier {k : TokenKind} (hk : k.isIdentifierLike = true) :
    MovesAt markup k cost identifier where
  ends := by
    intro text budget bounds wide hrules context s hc hs hn hle
    have hask (rules : Rules) (context : Context) :
        atIdentifier.run rules context s = some (true, s) := by
      rw [run_atIdentifier, hn, hk]
    unfold identifier
    refine (Runs.ask hs hask).bind fun b t _ _ hb => ?_
    obtain ⟨rfl, rfl⟩ := hb
    have hne : k ≠ .endOfFile := by rintro rfl; exact absurd hk (by decide)
    exact (moves_tokenNodeAs _).ends hrules hc hs (hs.within_of_kind hn hne) hle

instance (isAsync : Bool) : Steps markup cost (arrowParameters isAsync) where
  ends := by
    have hyes : ∀ {rules : Rules} {context : Context} {s t : State},
        (pure isAsync <&&> atIdentifier).run rules context s = some (true, t) →
          s.scanner.kind.isIdentifierLike = true := by
      intro rules context s t hrun
      rw [and_eq] at hrun
      obtain ⟨b, u, hb, hf⟩ := run_bind_eq_some.1 hrun
      obtain ⟨-, rfl⟩ := run_pure_eq_some.1 hb
      cases b with
      | true =>
        obtain ⟨k, v, hk, hlike⟩ := run_bind_eq_some.1 hf
        cases hk
        exact (run_pure_eq_some.1 hlike).1.symm
      | false => cases (run_pure_eq_some.1 hf).1
    unfold arrowParameters
    refine .branch hyes (fun _ => trivial) ?_ ?_
    · intro text budget bounds wide hrules context s hc hs hn hle
      have hname : MovesAt markup s.scanner.kind cost identifier := movesAt_identifier hn.2
      have hparameter :
          MovesAt markup s.scanner.kind cost (plainParameter >>= fun _ => pure true) := by
        unfold plainParameter node
        infer_instance
      exact (hparameter.ends hrules hc hs rfl hle).mono fun _ _ _ hmoved _ => hmoved
    · have hrest : Steps markup cost (typeParametersHere >>= fun _ => isAt .openParen >>= fun b =>
          if b = true then do
            parameterList
            optionally (accept? .colon) resultType
            return true
          else return false) := inferInstance
      exact hrest.ends.mono (fun _ _ _ _ => trivial) fun _ _ _ => id

instance : Steps markup cost arrowHead := by unfold arrowHead; infer_instance

instance : Steps markup cost arrowFront := by
  unfold arrowFront
  refine .ofKind fun k => ?_
  split <;> exact .inl inferInstance

instance [Below .assignment cost] : Halts markup cost arrowBody := by
  unfold arrowBody
  infer_instance

instance : Moves markup cost yieldExpression := by unfold yieldExpression; infer_instance

instance : Halts markup cost conditionalRest := by unfold conditionalRest; infer_instance

instance [Below (.binary 0) cost] : Halts markup cost plainAssignment := by
  unfold plainAssignment
  refine @halts_bind _ _ _ _ _ _ inferInstance fun _ =>
    @halts_bind _ _ _ _ _ _ inferInstance fun _ => .ofKind fun k => ?_
  split_ifs with hk
  · exact .inr ⟨by rintro rfl; exact absurd hk (by decide), inferInstance⟩
  · exact .inl inferInstance

instance [Below (.binary 0) cost] : Halts markup cost assignmentExpression := by
  unfold assignmentExpression
  infer_instance

/-! ### Imports, exports and namespaces -/

instance : Halts markup cost exportedName := by unfold exportedName; infer_instance

instance : Halts markup cost atAssert := by unfold atAssert; infer_instance

instance : Halts markup cost importAttributes := by unfold importAttributes; infer_instance

instance : Halts markup cost marksType := by unfold marksType; infer_instance

instance (whole : NodeKind) : Halts markup cost (specifier whole) := by
  unfold specifier
  infer_instance

instance (list item : NodeKind) : Halts markup cost (namedSpecifiers list item) := by
  unfold namedSpecifiers
  infer_instance

instance : Halts markup cost requiredModule := by unfold requiredModule; infer_instance

instance : Halts markup cost importEqualsSource := by unfold importEqualsSource; infer_instance

instance : Halts markup cost importEqualsRest := by unfold importEqualsRest; infer_instance

instance : Halts markup cost importRest := by unfold importRest; infer_instance

instance : Halts markup cost namespaceImport := by unfold namespaceImport; infer_instance

instance : Halts markup cost importedNames := by
  unfold importedNames
  refine .ofKind fun k => ?_
  split <;> exact .inl inferInstance

instance : Halts markup cost marksTypeImport := by unfold marksTypeImport; infer_instance

instance : Halts markup cost importClause := by unfold importClause; infer_instance

instance : Halts markup cost importDeclaration := by unfold importDeclaration; infer_instance

instance [Below .assignment cost] : Halts markup cost exportedExpression := by
  unfold exportedExpression
  infer_instance

instance : Halts markup cost exportedModule := by unfold exportedModule; infer_instance

instance : Halts markup cost exportedNames := by unfold exportedNames; infer_instance

instance : Moves markup cost exportDeclaration := by unfold exportDeclaration; infer_instance

instance : Moves markup cost exportDefault := by unfold exportDefault; infer_instance

instance : Halts markup cost namespaceBody := by unfold namespaceBody; infer_instance

instance : Halts markup cost namespaceRest := by unfold namespaceRest; infer_instance

instance : Halts markup cost innerNamespace := by unfold innerNamespace; infer_instance

instance : Halts markup cost namespaceName := by unfold namespaceName; infer_instance

instance : Halts markup cost namespaceDeclaration := by unfold namespaceDeclaration; infer_instance

/-! ### Statements -/

instance : Halts markup cost atVariables := by
  unfold atVariables
  refine .ofKind fun k => ?_
  split <;> exact .inl inferInstance

instance [Below .bindingName cost] : Halts markup cost variableDeclaration := by
  unfold variableDeclaration
  infer_instance

instance : Halts markup cost variableWords := by unfold variableWords; infer_instance

instance [Below .bindingName cost] : Halts markup cost variableDeclarations := by
  unfold variableDeclarations
  infer_instance

instance [Below .bindingName cost] : Halts markup cost variableStatement := by
  unfold variableStatement
  infer_instance

instance [Below .assignment cost] : Halts markup cost expressionStatement := by
  unfold expressionStatement
  infer_instance

instance : Halts markup cost functionDeclaration := by unfold functionDeclaration; infer_instance

instance : Halts markup cost interfaceDeclaration := by unfold interfaceDeclaration; infer_instance

instance : Moves markup cost typeAliasDeclaration := by unfold typeAliasDeclaration; infer_instance

instance : Halts markup cost enumMember := by unfold enumMember; infer_instance

instance : Halts markup cost enumDeclaration := by unfold enumDeclaration; infer_instance

instance : StepsOn markup cost declarationStep := by
  unfold declarationStep
  refine .ofKind fun k => ?_
  split
  all_goals first
    | exact .inl inferInstance
    | exact .inr ⟨by decide, inferInstance⟩

instance : Halts markup cost atDeclaration := by unfold atDeclaration; infer_instance

instance : Halts markup cost atPlainExport := by unfold atPlainExport; infer_instance

instance : Halts markup cost atExportDefault := by unfold atExportDefault; infer_instance

instance : Halts markup cost atTypeExport := by unfold atTypeExport; infer_instance

instance [Below .assignment cost] : Halts markup cost missingDeclaration := by
  unfold missingDeclaration
  infer_instance

instance [Below .bindingName cost] [Below .assignment cost] : Halts markup cost
    (declarationRest ) := by
  unfold declarationRest
  refine .ofKind fun k => ?_
  split
  all_goals first
    | exact .inl inferInstance
    | exact .inr ⟨by decide, inferInstance⟩

instance [Below .bindingName cost] [Below .assignment cost] : Halts markup cost (declaration ) := by
  unfold declaration
  infer_instance

instance [Below .assignment cost] : Halts markup cost conditionInParens := by
  unfold conditionInParens
  infer_instance

instance : Moves markup cost labeledStatement := by unfold labeledStatement; infer_instance

instance : Moves markup cost ifStatement := by unfold ifStatement; infer_instance

instance : Moves markup cost doStatement := by unfold doStatement; infer_instance

instance (whole : NodeKind) : Moves markup cost (conditionAndBody whole) := by
  unfold conditionAndBody
  infer_instance

instance [Below .bindingName cost] [Below .assignment cost] : Halts markup cost (loopStart ) := by
  unfold loopStart
  infer_instance

instance (whole : NodeKind) [Below .statement cost] : Halts markup cost (loopBody whole) := by
  unfold loopBody
  infer_instance

instance (hasStart : Bool) [Below .assignment cost] [Below .statement cost] : Halts markup cost
    (loopRest hasStart) := by
  unfold loopRest
  infer_instance

instance : Moves markup cost forStatement := by unfold forStatement; infer_instance

instance (whole : NodeKind) : Halts markup cost (jumpStatement whole) := by
  unfold jumpStatement
  infer_instance

instance : Moves markup cost returnStatement := by unfold returnStatement; infer_instance

instance : Moves markup cost throwStatement := by unfold throwStatement; infer_instance

instance [Below .statement cost] : Halts markup cost caseStatements := by
  unfold caseStatements
  infer_instance

instance [Below .statement cost] : Halts markup cost caseRest := by unfold caseRest; infer_instance

instance : Steps markup cost switchClause := by unfold switchClause; infer_instance

instance : Moves markup cost switchStatement := by unfold switchStatement; infer_instance

instance : Halts markup cost caughtVariable := by unfold caughtVariable; infer_instance

instance : Halts markup cost catchClause := by unfold catchClause; infer_instance

instance (handled : Bool) : Halts markup cost (tryRest handled) := by unfold tryRest; infer_instance

instance : Halts markup cost tryStatement := by unfold tryStatement; infer_instance

instance : Halts markup cost debuggerStatement := by unfold debuggerStatement; infer_instance

instance [Below .bindingName cost] [Below .assignment cost] : Halts markup cost
    (plainStatement ) := by
  unfold plainStatement
  infer_instance

instance [Below .bindingName cost] [Below .assignment cost] : Halts markup cost
    (anyStatement ) := by
  unfold anyStatement
  refine .ofKind fun k => ?_
  split
  all_goals first
    | exact .inl inferInstance
    | exact .inr ⟨by decide, inferInstance⟩

/-! ### All together -/

/-- No production costs more than the level of its construct. -/
theorem ends_produce {construct : Construct}
    (h : ∀ amongChildren, construct ≠ .markup amongChildren) :
    Ends markup (fun text s => construct.startsAtToken = true → s.Within text) construct.level
      (produce construct) fun _ _ _ => True := by
  have of_halts (hr : Halts markup construct.level (produce construct)) :
      Ends markup (fun text s => construct.startsAtToken = true → s.Within text) construct.level
        (produce construct) fun _ _ _ => True :=
    hr.ends.mono (fun _ _ _ _ => trivial) fun _ _ _ => id
  cases construct with
  | markup amongChildren => exact absurd rfl (h amongChildren)
  | newExpression =>
    have hnew : Moves markup 0 newExpression := inferInstance
    exact hnew.ends.mono (fun _ _ _ hwithin => hwithin rfl) fun _ _ _ _ => trivial
  | statement =>
    exact of_halts
      (inferInstanceAs (Halts markup 5 (nested (node .emptyStatement (pure ())) anyStatement)))
  | assignment =>
    exact of_halts
      (inferInstanceAs (Halts markup 4 (nested (missing .expressionExpected) assignmentExpression)))
  | binary outer => exact of_halts (inferInstanceAs (Halts markup 3 (binaryExpression outer)))
  | unary =>
    exact of_halts
      (inferInstanceAs (Halts markup 2 (nested (missing .expressionExpected) unaryExpression)))
  | leftHandSide => exact of_halts (inferInstanceAs (Halts markup 1 leftHandSide))
  | type =>
    exact of_halts (inferInstanceAs (Halts markup 1 (nested (missing .typeExpected) anyType)))
  | typeOperator => exact of_halts (inferInstanceAs (Halts markup 0 typeOperator))
  | bindingName => exact of_halts (inferInstanceAs (Halts markup 0 bindingName))
  | innerNamespace => exact of_halts (inferInstanceAs (Halts markup 0 innerNamespace))

/-- The budget of a construct is the depth of the recursion that it is given. -/
theorem Bounds.suffice_of_produce
    (hproduce : ∀ construct : Construct, construct.IsFor markup →
      Ends markup (fun text s => construct.startsAtToken = true → s.Within text) construct.level
        (produce construct) fun _ _ _ => True)
    {depth m k l : ℕ} (hdepth : depth ≤ m) (hk : byteLength text ≤ k) (hl : byteLength text ≤ l) :
    Bounds.Suffice markup text depth ⟨depth, k⟩ ⟨m, l⟩ := by
  induction depth generalizing m with
  | zero => exact ⟨hk, hl, fun _ _ _ _ _ _ _ hlt => absurd hlt (Nat.not_lt_zero _)⟩
  | succ depth ih =>
    obtain ⟨m, rfl⟩ := Nat.exists_eq_succ_of_ne_zero (Nat.ne_zero_of_lt hdepth)
    refine ⟨hk, hl, fun construct context s hfor hc hs hstart hlt => ?_⟩
    exact (hproduce construct hfor (ih (Nat.le_of_succ_le_succ hdepth)) hc hs hstart
      (Nat.le_of_lt_succ hlt)).of_eq rfl rfl rfl

/-- Where there is no markup, everything comes to an end. -/
theorem Bounds.suffice_standard {depth m k l : ℕ} (hdepth : depth ≤ m) (hk : byteLength text ≤ k)
    (hl : byteLength text ≤ l) : Bounds.Suffice false text depth ⟨depth, k⟩ ⟨m, l⟩ :=
  Bounds.suffice_of_produce
    (fun construct hfor => ends_produce fun amongChildren heq =>
      absurd (hfor.allowed amongChildren heq) (by decide)) hdepth hk hl

theorem Runs.exists_run {α : Type} {run wide : State → Option (α × State)} {s : State}
    {gain : α → State → Prop} (h : Runs false text run wide s gain) :
    ∃ a t, run s = some (a, t) ∧ s.Onward text t := by
  cases h with
  | ends hrun _ hst _ => exact ⟨_, _, hrun, hst⟩
  | never h => cases h

theorem left_le (text : List Char) (s : State) : s.left text ≤ Text.byteLength text :=
  Nat.sub_le _ _

/-- What a construct has come to with some depth of recursion and some number of steps, it comes to
with more of both. -/
theorem rulesWithin_of_le {m n size : ℕ} {construct : Construct} {context : Context} {s t : State}
    (h : rulesWithin n construct context s = some ((), t)) (hdepth : n ≤ m)
    (hsize : context.size ≤ size) :
    rulesWithin m construct { context with size } s = some ((), t) := by
  have hstep : Lockstep unguarded unguarded fun s t => s = t ∧ True :=
    lockstep_invariant (p := fun _ _ => True) (fun _ _ => id) (fun _ _ => id) unguarded
  rw [← guardedWithin_unguarded] at h ⊢
  obtain ⟨_, hrun, rfl, -⟩ :=
    hstep.follows_guardedWithin hdepth construct context hsize ⟨rfl, trivial⟩ h
  exact hrun

theorem stands_first (text : List Char) :
    (State.advance .code { scanner := Scanner.ofText text }).Stands text :=
  ⟨Scanner.sound_next (.refl _), Scan.full_apply .code _⟩

end ExpectError.Grammar

namespace ExpectError.SourceFile

open Grammar Text

/-- Every text is read in the standard dialect, whatever errors are noted. No repetition in it has
more steps than the text has bytes, and no recursion is deeper than `depthBound`: from every state of
the text, in every mode and beyond the greatest depth of nesting too, each construct comes to an end
within these bounds, and greater ones make no difference. -/
theorem exists_read?_standard (text : List Char) :
    (∃ file, read? .standard text = some file) ∧
      ∀ (construct : Construct) (context : Context) (s : State),
        (∀ amongChildren, construct ≠ .markup amongChildren) → context.mode.markup = false →
        s.Stands text → (construct = .newExpression → s.Within text) →
        ∃ t, s.Onward text t ∧ ∀ depth size, depthBound (byteLength text) ≤ depth →
          byteLength text ≤ size →
          rulesWithin depth construct { context with size } s = some ((), t) := by
  have hsuffice := @Bounds.suffice_standard text (depthBound (byteLength text))
    (depthBound (byteLength text)) (byteLength text) (byteLength text) le_rfl le_rfl le_rfl
  constructor
  · have hitems : Halts false 8 (itemsUntil [.endOfFile] .statementExpected (call .statement)) :=
      inferInstance
    -- each statement is measured by the bytes that are left, at most those of the text
    have hle : 8 * State.left text (State.advance .code { scanner := Scanner.ofText text }) + 8 ≤
        depthBound (byteLength text) := by
      have := left_le text (State.advance .code { scanner := Scanner.ofText text })
      unfold depthBound
      omega
    have hmode : ({ size := byteLength text, mode := { markup := false } } : Context).mode.markup =
      false := rfl
    obtain ⟨_, t, hrun, -⟩ :=
      (hitems.ends hsuffice hmode (stands_first text) trivial hle).exists_run
    have hwhole : wholeText.run (rulesWithin (depthBound (byteLength text)))
        { size := byteLength text, mode := { markup := false } }
        { scanner := Scanner.ofText text } = some ((), t) :=
      run_bind_eq_some.2 ⟨(), _, rfl, hrun⟩
    exact ⟨_, Option.bind_eq_some_iff.2 ⟨((), t), hwhole, rfl⟩⟩
  · intro construct context s hne hmarkup hs hnew
    have hstart (h : construct.startsAtToken = true) : s.Within text := by
      cases construct with
      | newExpression => exact hnew rfl
      | markup amongChildren => exact absurd rfl (hne amongChildren)
      | _ => cases h
    have hlevel : construct.level < 8 := Construct.Below.lt
    have hlt : 8 * s.left text + construct.level < depthBound (byteLength text) := by
      have := left_le text s
      unfold depthBound
      omega
    have hfor : construct.IsFor false := ⟨fun amongChildren heq => absurd heq (hne amongChildren)⟩
    obtain ⟨_, t, hrun, hst⟩ := (hsuffice.calls hfor hmarkup hs hstart hlt).exists_run
    refine ⟨t, hst, fun depth size hdepth hsize => ?_⟩
    have hmore := rulesWithin_of_le hrun hdepth hsize
    exact hmore

/-- At the greatest depth of nesting an expression comes to an end without a token consumed. -/
theorem exists_read?_standard_nested :
    (∃ file, read? .standard "((".toList = some file) ∧
      ∃ t, rulesWithin 80 .assignment
          { size := 2, mode := { markup := false }, depth := maxDepth }
          (State.advance .code { scanner := Scanner.ofText "((".toList }) = some ((), t) ∧
        t.position = 0 := by
  obtain ⟨hread, hruns⟩ := exists_read?_standard "((".toList
  obtain ⟨t, -, hrun⟩ := hruns .assignment
    { size := 2, mode := { markup := false }, depth := maxDepth } _ (by simp) rfl
    (stands_first "((".toList) (by simp)
  have hlast := hrun 80 2 (by decide) (by decide)
  have hposition : (rulesWithin 80 .assignment
      { size := 2, mode := { markup := false }, depth := maxDepth }
      (State.advance .code { scanner := Scanner.ofText "((".toList })).map
        (fun result => result.2.position) = some 0 := by
    decide +kernel
  rw [hlast] at hposition
  exact ⟨hread, t, hlast, Option.some.inj hposition⟩

end ExpectError.SourceFile
