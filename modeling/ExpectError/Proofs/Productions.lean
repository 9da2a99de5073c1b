import ExpectError.Proofs.Promises

/-!
# The productions of the grammar

Every recursive construct consumes a token in a run without errors, and its nodes are laid out well.
Here are the productions outside markup, part by part.
-/

open ExpectError.Tree (isMarkup)

-- the promises of a production are found in as many steps as it has words
set_option synthInstance.maxSize 100000
set_option synthInstance.maxHeartbeats 200000

namespace ExpectError.Grammar

/-! ### Pieces that many constructs share -/

instance goes_allowIn {x : Reader Unit} [Goes x] : Goes (allowIn x) := goes_within

instance eats_allowIn {x : Reader Unit} [Eats x] : Eats (allowIn x) := eats_within

instance eats_forbidIn {x : Reader Unit} [Eats x] : Eats (forbidIn x) := eats_within

instance eats_allowConditional {x : Reader Unit} [Eats x] : Eats (allowConditional x) := eats_within

instance goes_allowConditional {x : Reader Unit} [Goes x] : Goes (allowConditional x) := goes_within

instance eats_forbidConditional {x : Reader Unit} [Eats x] : Eats (forbidConditional x) :=
  eats_within

instance goes_allowAll {x : Reader Unit} [Goes x] : Goes (allowAll x) := goes_allowIn

instance eats_allowAll {x : Reader Unit} [Eats x] : Eats (allowAll x) := eats_allowIn

instance : Eats expression := by unfold expression; infer_instance

instance : Eats wholeExpression := eats_allowIn

instance : Eats wholeAssignment := eats_allowIn

instance : Eats wholeType := eats_allowConditional

instance : Goes statements := goes_itemsUntil

instance : Eats block := by unfold block; infer_instance

instance : Eats functionBlock := eats_allowAll

instance : Goes functionBlockOrSemicolon := by unfold functionBlockOrSemicolon; infer_instance

section

variable {part : Reader Unit} {span whole : NodeKind} [IsFalse (isMarkup span)]
  [IsFalse (isMarkup whole)]

instance [Eats part] : Eats (templateSpan part span) := by unfold templateSpan; infer_instance

instance [Eats part] : EatsHere (template part span whole) := by unfold template; infer_instance

end

instance : EatsHere templateLiteral := by unfold templateLiteral; infer_instance

instance : Eats computedPropertyName := by unfold computedPropertyName; infer_instance

instance : Eats propertyName := by
  unfold propertyName
  refine .ofKind fun k => ?_
  split
  all_goals first
    | exact .inl inferInstance
    | exact .inr ⟨by decide, inferInstance⟩

instance : Asks nextIsPropertyNameOnLine := asks_lookAhead

instance : Goes decorators := by unfold decorators; infer_instance

instance : Eats entityName := by unfold entityName; infer_instance

/-! ### Binding patterns -/

instance : Goes defaultValue := by unfold defaultValue; infer_instance

instance : Eats objectBindingElement := by unfold objectBindingElement; infer_instance

instance : Eats objectBindingPattern := by unfold objectBindingPattern; infer_instance

instance : Eats arrayBindingElement := by unfold arrayBindingElement; infer_instance

instance : Eats arrayBindingPattern := by unfold arrayBindingPattern; infer_instance

instance : Eats bindingName := by
  unfold bindingName
  refine .ofKind fun k => .inl ?_
  split <;> infer_instance

/-! ### Signatures -/

instance : Eats typeArguments := by unfold typeArguments; infer_instance

instance : Goes typeArgumentsHere := by unfold typeArgumentsHere; infer_instance

instance : Goes typeArgumentsOnLine := by unfold typeArgumentsOnLine; infer_instance

instance : Eats typeParameter := by unfold typeParameter; infer_instance

instance : Eats typeParameters := by unfold typeParameters; infer_instance

instance : Goes typeParametersHere := by unfold typeParametersHere; infer_instance

instance : AsksToken atParameterModifier := by unfold atParameterModifier; infer_instance

instance : Eats parameterName := by unfold parameterName; infer_instance

instance : Eats parameter := by unfold parameter; infer_instance

instance : Eats parameterList := by unfold parameterList; infer_instance

instance : Eats predicateSubject := by unfold predicateSubject; infer_instance

instance : AsksToken atIs := by unfold atIs; infer_instance

instance : Eats resultType := by unfold resultType; infer_instance

instance : Eats signature := by unfold signature; infer_instance

/-! ### Types -/

instance : Asks atFunctionType := by
  unfold atFunctionType
  refine .ofKind fun k => ?_
  split <;> infer_instance

instance : Eats functionType := by unfold functionType; infer_instance

section

variable {mark : TokenKind} {whole : NodeKind} {part : Reader Unit} [IsFalse (isEnd mark)]
  [IsFalse (isMarkup whole)]

instance [Eats part] : Eats (joinedTypes mark whole part) := by
  unfold joinedTypes
  infer_instance

end

instance : Eats intersectionType := by unfold intersectionType; infer_instance

instance : Eats unionType := by unfold unionType; infer_instance

instance : AsksToken atConditionalRest := by unfold atConditionalRest; infer_instance

instance : Eats anyType := by unfold anyType; infer_instance

instance : Accepts inferConstraint := by unfold inferConstraint; infer_instance

instance : Eats inferType := by unfold inferType; infer_instance

instance : Eats typeReference := by unfold typeReference; infer_instance

instance : Eats importType := by unfold importType; infer_instance

instance : Eats typeQuery := by unfold typeQuery; infer_instance

instance : Asks atNamedTupleMember := by unfold atNamedTupleMember; infer_instance

instance : Eats tupleElement := by unfold tupleElement; infer_instance

instance : Eats tupleType := by unfold tupleType; infer_instance

instance : Goes memberEnd := by unfold memberEnd; infer_instance

instance : Eats mappedType := by unfold mappedType; infer_instance

instance : AsksToken atIndexSignature := by unfold atIndexSignature; infer_instance

instance : Finishes indexSignature := by unfold indexSignature; infer_instance

instance : Finishes propertyOrMethodSignature := by unfold propertyOrMethodSignature; infer_instance

instance : Asks nextIsNameOnLine := by unfold nextIsNameOnLine; infer_instance

instance {whole : NodeKind} [IsFalse (isMarkup whole)] : FinishesHere (accessorSignature whole) := by
  unfold accessorSignature
  infer_instance

instance : Eats typeMember := by unfold typeMember; infer_instance

instance : Goes typeMemberOrSkip := by unfold typeMemberOrSkip; infer_instance

instance : Eats typeMembers := by unfold typeMembers; infer_instance

instance : EatsHere negativeLiteralType := by unfold negativeLiteralType; infer_instance

instance : Eats parenthesizedType := by unfold parenthesizedType; infer_instance

instance : Eats introducedType := by
  unfold introducedType
  refine .ofKind fun k => ?_
  split
  all_goals first
    | exact .inl inferInstance
    | exact .inr ⟨by decide, inferInstance⟩

instance : TokensOnly typeKeywords := by unfold typeKeywords; infer_instance

instance : TokensOnly literalTypeTokens := by unfold literalTypeTokens; infer_instance

instance : Eats primaryType := by unfold primaryType; infer_instance

instance : GoesOn bracketsBehindType := by unfold bracketsBehindType; infer_instance

instance : Eats bracketedType := by unfold bracketedType; infer_instance

instance : Eats typeOperator := by
  unfold typeOperator
  refine .ofKind fun k => .inl ?_
  split <;> infer_instance

/-! ### Classes -/

instance : TokensOnly modifierWords := by unfold modifierWords; infer_instance

instance : Asks nextIsFunctionOnLine := by unfold nextIsFunctionOnLine; infer_instance

instance : Goes modifiers := by unfold modifiers; infer_instance

instance : Finishes namedMember := by unfold namedMember; infer_instance

instance {whole : NodeKind} [IsFalse (isMarkup whole)] : FinishesHere (accessorDeclaration whole) := by
  unfold accessorDeclaration
  infer_instance

instance : Finishes memberRest := by unfold memberRest; infer_instance

instance : Eats classMember := by unfold classMember; infer_instance

instance : Eats heritageType := by unfold heritageType; infer_instance

instance : Goes heritageClauses := by unfold heritageClauses; infer_instance

instance {whole : NodeKind} [IsFalse (isMarkup whole)] : Finishes (classRest whole) := by
  unfold classRest
  infer_instance

/-! ### Expressions -/

instance : TokensOnly expressionStarts := by unfold expressionStarts; infer_instance

instance : AsksToken atExpression := by unfold atExpression; infer_instance

instance : Eats spreadOrAssignment := by unfold spreadOrAssignment; infer_instance

instance : Eats argumentList := by unfold argumentList; infer_instance

instance : Asks confirmsTypeArguments := by
  unfold confirmsTypeArguments
  refine .ofKind fun k => ?_
  split <;> infer_instance

instance : Accepts typeArgumentsInExpression := by unfold typeArgumentsInExpression; infer_instance

instance : Finishes elementAccess := by unfold elementAccess; infer_instance

instance : Finishes callRest := by unfold callRest; infer_instance

instance : Finishes propertyAccess := by unfold propertyAccess; infer_instance

instance : FinishesHere taggedTemplate := by unfold taggedTemplate; infer_instance

instance : Finishes optionalAccess := by
  unfold optionalAccess
  refine .ofKind fun k => .inl ?_
  split <;> infer_instance

instance : GoesOn instantiated := by
  unfold instantiated
  refine .ofKind fun k => ?_
  split
  all_goals first
    | exact .inl inferInstance
    | exact .inr ⟨by decide, inferInstance⟩

instance (withCalls : Bool) : GoesOn (access withCalls) := by
  unfold access
  refine .ofKind fun k => ?_
  split
  all_goals first
    | exact .inl inferInstance
    | exact .inr ⟨by decide, inferInstance⟩

instance (withCalls : Bool) : GoesOn (accesses withCalls) := by unfold accesses; infer_instance

instance : Eats parenthesizedExpression := by unfold parenthesizedExpression; infer_instance

instance : Eats arrayLiteral := by unfold arrayLiteral; infer_instance

instance {whole : NodeKind} [IsFalse (isMarkup whole)] : Finishes (objectFunction whole) := by
  unfold objectFunction
  infer_instance

instance : GoesOn objectProperty := by unfold objectProperty; infer_instance

instance : Eats objectMember := by unfold objectMember; infer_instance

instance : Eats objectLiteral := by unfold objectLiteral; infer_instance

instance : Eats functionExpression := by unfold functionExpression; infer_instance

instance : Eats classExpression := by unfold classExpression; infer_instance

instance : Eats introducedExpression := by
  unfold introducedExpression
  refine .ofKind fun k => ?_
  split
  all_goals first
    | exact .inl inferInstance
    | exact .inr ⟨by decide, inferInstance⟩

instance : TokensOnly literalTokens := by unfold literalTokens; infer_instance

instance : Eats primaryExpression := by unfold primaryExpression; infer_instance

instance : Eats newOperand := by unfold newOperand; infer_instance

instance : Eats newCallee := by unfold newCallee; infer_instance

instance : Eats newExpression := by unfold newExpression; infer_instance

instance : Eats accessedExpression := by unfold accessedExpression; infer_instance

instance : Eats leftHandSide := by unfold leftHandSide; infer_instance

instance {whole : NodeKind} [IsFalse (isMarkup whole)] : Eats (operatorAndOperand whole) := by
  unfold operatorAndOperand
  infer_instance

instance : Eats typeAssertion := by unfold typeAssertion; infer_instance

instance : Eats postfixExpression := by unfold postfixExpression; infer_instance

instance : Eats assertedOrPostfix := by unfold assertedOrPostfix; infer_instance

instance : Eats unaryExpression := by
  unfold unaryExpression
  refine .ofKind fun k => .inl ?_
  split <;> infer_instance

instance (operator : TokenKind) : Eats (assertedType operator) := by
  unfold assertedType
  infer_instance

instance (operator : TokenKind) : GoesOn (wrapTypeCheck operator) := by
  unfold wrapTypeCheck
  infer_instance

instance (operator : TokenKind) : GoesOn (typeCheckRest operator) := by
  unfold typeCheckRest
  infer_instance

instance (outer : ℕ) : GoesOn (operatorRest outer) := by unfold operatorRest; infer_instance

instance (outer : ℕ) : Eats (binaryExpression outer) := by unfold binaryExpression; infer_instance

instance : Eats plainParameter := by unfold plainParameter; infer_instance

instance : AsksToken atArrow := by unfold atArrow; infer_instance

instance (isAsync : Bool) : Accepts (arrowParameters isAsync) := by
  unfold arrowParameters
  infer_instance

instance : Accepts arrowHead := by unfold arrowHead; infer_instance

instance : Accepts arrowFront := by
  unfold arrowFront
  refine .ofKind fun k => ?_
  split <;> infer_instance

instance : Eats arrowBody := by unfold arrowBody; infer_instance

instance : EatsHere yieldExpression := by unfold yieldExpression; infer_instance

instance : GoesOn conditionalRest := by unfold conditionalRest; infer_instance

instance : Finishes plainAssignment := by unfold plainAssignment; infer_instance

instance : Eats assignmentExpression := by unfold assignmentExpression; infer_instance

/-! ### Imports, exports and namespaces -/

instance : Eats exportedName := by unfold exportedName; infer_instance

instance : AsksToken atAssert := by unfold atAssert; infer_instance

instance : Goes importAttributes := by unfold importAttributes; infer_instance

instance {whole : NodeKind} [IsFalse (isMarkup whole)] : Eats (specifier whole) := by
  unfold specifier
  infer_instance

instance {list item : NodeKind} [IsFalse (isMarkup list)] [IsFalse (isMarkup item)] :
    Eats (namedSpecifiers list item) := by
  unfold namedSpecifiers
  infer_instance

instance : Eats requiredModule := by unfold requiredModule; infer_instance

instance : Eats importEqualsSource := by unfold importEqualsSource; infer_instance

instance : Finishes importEqualsRest := by unfold importEqualsRest; infer_instance

instance : Finishes importRest := by unfold importRest; infer_instance

instance : Eats namespaceImport := by unfold namespaceImport; infer_instance

instance : Eats importedNames := by
  unfold importedNames
  refine .ofKind fun k => .inl ?_
  split <;> infer_instance

instance : Eats importClause := by unfold importClause; infer_instance

instance : Finishes importDeclaration := by unfold importDeclaration; infer_instance

instance : Finishes exportedExpression := by unfold exportedExpression; infer_instance

instance : EatsHere exportedModule := by unfold exportedModule; infer_instance

instance : Eats exportedNames := by unfold exportedNames; infer_instance

instance : Finishes exportDeclaration := by unfold exportDeclaration; infer_instance

instance : Finishes exportDefault := by unfold exportDefault; infer_instance

instance : Goes namespaceBody := by unfold namespaceBody; infer_instance

instance : Goes namespaceRest := by unfold namespaceRest; infer_instance

instance : Eats innerNamespace := by unfold innerNamespace; infer_instance

instance : Eats namespaceName := by unfold namespaceName; infer_instance

instance : Finishes namespaceDeclaration := by unfold namespaceDeclaration; infer_instance

/-! ### Statements -/

instance : Asks atVariables := by
  unfold atVariables
  refine .ofKind fun k => ?_
  split <;> infer_instance

instance : Eats variableDeclaration := by unfold variableDeclaration; infer_instance

instance : Goes variableWords := by unfold variableWords; infer_instance

instance : Eats variableDeclarations := by unfold variableDeclarations; infer_instance

instance : Finishes variableStatement := by unfold variableStatement; infer_instance

instance : Eats expressionStatement := by unfold expressionStatement; infer_instance

instance : Finishes functionDeclaration := by unfold functionDeclaration; infer_instance

instance : Finishes interfaceDeclaration := by unfold interfaceDeclaration; infer_instance

instance : Finishes typeAliasDeclaration := by unfold typeAliasDeclaration; infer_instance

instance : Eats enumMember := by unfold enumMember; infer_instance

instance : Finishes enumDeclaration := by unfold enumDeclaration; infer_instance

instance : Asks atDeclaration := by unfold atDeclaration; infer_instance

instance : AsksToken atPlainExport := by unfold atPlainExport; infer_instance

instance : AsksToken atExportDefault := by unfold atExportDefault; infer_instance

instance : AsksToken atTypeExport := by unfold atTypeExport; infer_instance

instance : Eats missingDeclaration := by unfold missingDeclaration; infer_instance

instance : Finishes declarationRest := by
  unfold declarationRest
  refine .ofKind fun k => .inl ?_
  split <;> infer_instance

instance : Eats declaration := by unfold declaration; infer_instance

instance : Eats conditionInParens := by unfold conditionInParens; infer_instance

instance : Eats labeledStatement := by unfold labeledStatement; infer_instance

instance : Eats ifStatement := by unfold ifStatement; infer_instance

instance : Eats doStatement := by unfold doStatement; infer_instance

instance {whole : NodeKind} [IsFalse (isMarkup whole)] : Eats (conditionAndBody whole) := by
  unfold conditionAndBody
  infer_instance

instance : Goes loopStart := by unfold loopStart; infer_instance

instance {whole : NodeKind} [IsFalse (isMarkup whole)] : Finishes (loopBody whole) := by
  unfold loopBody
  infer_instance

instance (hasStart : Bool) : Finishes (loopRest hasStart) := by unfold loopRest; infer_instance

instance : Eats forStatement := by unfold forStatement; infer_instance

instance {whole : NodeKind} [IsFalse (isMarkup whole)] : EatsHere (jumpStatement whole) := by
  unfold jumpStatement
  infer_instance

instance : EatsHere returnStatement := by unfold returnStatement; infer_instance

instance : EatsHere throwStatement := by unfold throwStatement; infer_instance

instance : Goes caseStatements := by unfold caseStatements; infer_instance

instance : Eats caseRest := by unfold caseRest; infer_instance

instance : Goes switchClause := by unfold switchClause; infer_instance

instance : Eats switchStatement := by unfold switchStatement; infer_instance

instance : Goes caughtVariable := by unfold caughtVariable; infer_instance

instance : Goes catchClause := by unfold catchClause; infer_instance

instance (handled : Bool) : Goes (tryRest handled) := by unfold tryRest; infer_instance

instance : Eats tryStatement := by unfold tryStatement; infer_instance

instance : EatsHere debuggerStatement := by unfold debuggerStatement; infer_instance

instance : Eats plainStatement := by unfold plainStatement; infer_instance

instance : Eats anyStatement := by
  unfold anyStatement
  refine .ofKind fun k => ?_
  split
  all_goals first
    | exact .inl inferInstance
    | exact .inr ⟨by decide, inferInstance⟩

end ExpectError.Grammar
