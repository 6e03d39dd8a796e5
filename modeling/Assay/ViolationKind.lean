import Assay.Category
import Assay.Diagnostic

/-!
# Kinds of violation

The rules of the detectors whose reports are read. Every kind is reported under one category. A rule
is found by the last dotted part of its identifier, in any letter case, written as the kind's rule
name or in capitals, with or without the ending `Check` that the classes of a checker carry.
-/

namespace Assay

/-- One rule of a detector. -/
inductive ViolationKind
  | indentation
  | lineLength
  | whitespaceAround
  | whitespaceAfter
  | noWhitespaceBefore
  | noWhitespaceAfter
  | leftCurly
  | rightCurly
  | needBraces
  | oneStatementPerLine
  | multipleVariableDeclarations
  | emptyLineSeparator
  | operatorWrap
  | fileTabCharacter
  | typeName
  | methodName
  | localVariableName
  | localFinalVariableName
  | parameterName
  | lambdaParameterName
  | catchParameterName
  | memberName
  | staticVariableName
  | constantName
  | packageName
  | todoComment
  | trailingComment
  | commentsIndentation
  | missingJavadocType
  | missingJavadocMethod
  | missingJavadocConstructor
  | javadocVariable
  | javadocStyle
  | javadocParagraph
  | javadocMethod
  | javadocTagContinuationIndentation
  | summaryJavadoc
  | nonEmptyAtclauseDescription
  | atclauseOrder
  | invalidJavadocPosition
  | visibilityModifier
  | declarationOrder
  | overloadMethodsDeclarationOrder
  | unusedImports
  | unusedLocalVariable
  | unusedPrivateField
  | unusedPrivateMethod
  | unusedFormalParameter
  | emptyStatement
  | stringConcatenationInLoop
  | duplicateCode
  | fxmlInlineStyle
  | fxmlMissingController
  | fxmlHardcodedText
  | missingOverride
  | finalizeOverloaded
  | finalizeDoesNotCallSuperFinalize
  | finalizeOnlyCallsSuperFinalize
  | emptyFinalizer
  | avoidCallingFinalize
  | finalizeShouldBeProtected
  | unqualifiedStaticMethodCall
  | unqualifiedStaticFieldAccess
  | emptyCatchBlock
  deriving DecidableEq, Repr

namespace ViolationKind

/-- All kinds. -/
def all : List ViolationKind :=
  [.indentation, .lineLength, .whitespaceAround, .whitespaceAfter, .noWhitespaceBefore,
    .noWhitespaceAfter, .leftCurly, .rightCurly, .needBraces, .oneStatementPerLine,
    .multipleVariableDeclarations, .emptyLineSeparator, .operatorWrap, .fileTabCharacter, .typeName,
    .methodName, .localVariableName, .localFinalVariableName, .parameterName, .lambdaParameterName,
    .catchParameterName, .memberName, .staticVariableName, .constantName, .packageName,
    .todoComment, .trailingComment, .commentsIndentation, .missingJavadocType,
    .missingJavadocMethod, .missingJavadocConstructor, .javadocVariable, .javadocStyle,
    .javadocParagraph, .javadocMethod, .javadocTagContinuationIndentation, .summaryJavadoc,
    .nonEmptyAtclauseDescription, .atclauseOrder, .invalidJavadocPosition, .visibilityModifier,
    .declarationOrder, .overloadMethodsDeclarationOrder, .unusedImports, .unusedLocalVariable,
    .unusedPrivateField, .unusedPrivateMethod, .unusedFormalParameter, .emptyStatement,
    .stringConcatenationInLoop, .duplicateCode, .fxmlInlineStyle, .fxmlMissingController,
    .fxmlHardcodedText, .missingOverride, .finalizeOverloaded, .finalizeDoesNotCallSuperFinalize,
    .finalizeOnlyCallsSuperFinalize, .emptyFinalizer, .avoidCallingFinalize,
    .finalizeShouldBeProtected, .unqualifiedStaticMethodCall, .unqualifiedStaticFieldAccess,
    .emptyCatchBlock]

/-- The identifier that a detector gives the rule. -/
def rule : ViolationKind → String
  | .indentation => "Indentation"
  | .lineLength => "LineLength"
  | .whitespaceAround => "WhitespaceAround"
  | .whitespaceAfter => "WhitespaceAfter"
  | .noWhitespaceBefore => "NoWhitespaceBefore"
  | .noWhitespaceAfter => "NoWhitespaceAfter"
  | .leftCurly => "LeftCurly"
  | .rightCurly => "RightCurly"
  | .needBraces => "NeedBraces"
  | .oneStatementPerLine => "OneStatementPerLine"
  | .multipleVariableDeclarations => "MultipleVariableDeclarations"
  | .emptyLineSeparator => "EmptyLineSeparator"
  | .operatorWrap => "OperatorWrap"
  | .fileTabCharacter => "FileTabCharacter"
  | .typeName => "TypeName"
  | .methodName => "MethodName"
  | .localVariableName => "LocalVariableName"
  | .localFinalVariableName => "LocalFinalVariableName"
  | .parameterName => "ParameterName"
  | .lambdaParameterName => "LambdaParameterName"
  | .catchParameterName => "CatchParameterName"
  | .memberName => "MemberName"
  | .staticVariableName => "StaticVariableName"
  | .constantName => "ConstantName"
  | .packageName => "PackageName"
  | .todoComment => "TodoComment"
  | .trailingComment => "TrailingComment"
  | .commentsIndentation => "CommentsIndentation"
  | .missingJavadocType => "MissingJavadocType"
  | .missingJavadocMethod => "MissingJavadocMethod"
  | .missingJavadocConstructor => "MissingJavadocConstructor"
  | .javadocVariable => "JavadocVariable"
  | .javadocStyle => "JavadocStyle"
  | .javadocParagraph => "JavadocParagraph"
  | .javadocMethod => "JavadocMethod"
  | .javadocTagContinuationIndentation => "JavadocTagContinuationIndentation"
  | .summaryJavadoc => "SummaryJavadoc"
  | .nonEmptyAtclauseDescription => "NonEmptyAtclauseDescription"
  | .atclauseOrder => "AtclauseOrder"
  | .invalidJavadocPosition => "InvalidJavadocPosition"
  | .visibilityModifier => "VisibilityModifier"
  | .declarationOrder => "DeclarationOrder"
  | .overloadMethodsDeclarationOrder => "OverloadMethodsDeclarationOrder"
  | .unusedImports => "UnusedImports"
  | .unusedLocalVariable => "UnusedLocalVariable"
  | .unusedPrivateField => "UnusedPrivateField"
  | .unusedPrivateMethod => "UnusedPrivateMethod"
  | .unusedFormalParameter => "UnusedFormalParameter"
  | .emptyStatement => "EmptyStatement"
  | .stringConcatenationInLoop => "UseStringBufferForStringAppends"
  | .duplicateCode => "CPD"
  | .fxmlInlineStyle => "FxmlInlineStyle"
  | .fxmlMissingController => "FxmlMissingController"
  | .fxmlHardcodedText => "FxmlHardcodedText"
  | .missingOverride => "MissingOverride"
  | .finalizeOverloaded => "FinalizeOverloaded"
  | .finalizeDoesNotCallSuperFinalize => "FinalizeDoesNotCallSuperFinalize"
  | .finalizeOnlyCallsSuperFinalize => "FinalizeOnlyCallsSuperFinalize"
  | .emptyFinalizer => "EmptyFinalizer"
  | .avoidCallingFinalize => "AvoidCallingFinalize"
  | .finalizeShouldBeProtected => "FinalizeShouldBeProtected"
  | .unqualifiedStaticMethodCall => "UnqualifiedStaticMethodCall"
  | .unqualifiedStaticFieldAccess => "UnqualifiedStaticFieldAccess"
  | .emptyCatchBlock => "EmptyCatchBlock"

/-- The name of the kind in capitals. -/
def capitalName : ViolationKind → String
  | .indentation => "INDENTATION"
  | .lineLength => "LINE_LENGTH"
  | .whitespaceAround => "WHITESPACE_AROUND"
  | .whitespaceAfter => "WHITESPACE_AFTER"
  | .noWhitespaceBefore => "NO_WHITESPACE_BEFORE"
  | .noWhitespaceAfter => "NO_WHITESPACE_AFTER"
  | .leftCurly => "LEFT_CURLY"
  | .rightCurly => "RIGHT_CURLY"
  | .needBraces => "NEED_BRACES"
  | .oneStatementPerLine => "ONE_STATEMENT_PER_LINE"
  | .multipleVariableDeclarations => "MULTIPLE_VARIABLE_DECLARATIONS"
  | .emptyLineSeparator => "EMPTY_LINE_SEPARATOR"
  | .operatorWrap => "OPERATOR_WRAP"
  | .fileTabCharacter => "FILE_TAB_CHARACTER"
  | .typeName => "TYPE_NAME"
  | .methodName => "METHOD_NAME"
  | .localVariableName => "LOCAL_VARIABLE_NAME"
  | .localFinalVariableName => "LOCAL_FINAL_VARIABLE_NAME"
  | .parameterName => "PARAMETER_NAME"
  | .lambdaParameterName => "LAMBDA_PARAMETER_NAME"
  | .catchParameterName => "CATCH_PARAMETER_NAME"
  | .memberName => "MEMBER_NAME"
  | .staticVariableName => "STATIC_VARIABLE_NAME"
  | .constantName => "CONSTANT_NAME"
  | .packageName => "PACKAGE_NAME"
  | .todoComment => "TODO_COMMENT"
  | .trailingComment => "TRAILING_COMMENT"
  | .commentsIndentation => "COMMENTS_INDENTATION"
  | .missingJavadocType => "MISSING_JAVADOC_TYPE"
  | .missingJavadocMethod => "MISSING_JAVADOC_METHOD"
  | .missingJavadocConstructor => "MISSING_JAVADOC_CONSTRUCTOR"
  | .javadocVariable => "JAVADOC_VARIABLE"
  | .javadocStyle => "JAVADOC_STYLE"
  | .javadocParagraph => "JAVADOC_PARAGRAPH"
  | .javadocMethod => "JAVADOC_METHOD"
  | .javadocTagContinuationIndentation => "JAVADOC_TAG_CONTINUATION_INDENTATION"
  | .summaryJavadoc => "SUMMARY_JAVADOC"
  | .nonEmptyAtclauseDescription => "NON_EMPTY_ATCLAUSE_DESCRIPTION"
  | .atclauseOrder => "ATCLAUSE_ORDER"
  | .invalidJavadocPosition => "INVALID_JAVADOC_POSITION"
  | .visibilityModifier => "VISIBILITY_MODIFIER"
  | .declarationOrder => "DECLARATION_ORDER"
  | .overloadMethodsDeclarationOrder => "OVERLOAD_METHODS_DECLARATION_ORDER"
  | .unusedImports => "UNUSED_IMPORTS"
  | .unusedLocalVariable => "UNUSED_LOCAL_VARIABLE"
  | .unusedPrivateField => "UNUSED_PRIVATE_FIELD"
  | .unusedPrivateMethod => "UNUSED_PRIVATE_METHOD"
  | .unusedFormalParameter => "UNUSED_FORMAL_PARAMETER"
  | .emptyStatement => "EMPTY_STATEMENT"
  | .stringConcatenationInLoop => "STRING_CONCATENATION_IN_LOOP"
  | .duplicateCode => "DUPLICATE_CODE"
  | .fxmlInlineStyle => "FXML_INLINE_STYLE"
  | .fxmlMissingController => "FXML_MISSING_CONTROLLER"
  | .fxmlHardcodedText => "FXML_HARDCODED_TEXT"
  | .missingOverride => "MISSING_OVERRIDE"
  | .finalizeOverloaded => "FINALIZE_OVERLOADED"
  | .finalizeDoesNotCallSuperFinalize => "FINALIZE_DOES_NOT_CALL_SUPER_FINALIZE"
  | .finalizeOnlyCallsSuperFinalize => "FINALIZE_ONLY_CALLS_SUPER_FINALIZE"
  | .emptyFinalizer => "EMPTY_FINALIZER"
  | .avoidCallingFinalize => "AVOID_CALLING_FINALIZE"
  | .finalizeShouldBeProtected => "FINALIZE_SHOULD_BE_PROTECTED"
  | .unqualifiedStaticMethodCall => "UNQUALIFIED_STATIC_METHOD_CALL"
  | .unqualifiedStaticFieldAccess => "UNQUALIFIED_STATIC_FIELD_ACCESS"
  | .emptyCatchBlock => "EMPTY_CATCH_BLOCK"

/-- The category a kind is reported under. -/
def category : ViolationKind → Category
  | .indentation | .lineLength | .whitespaceAround | .whitespaceAfter | .noWhitespaceBefore
  | .noWhitespaceAfter | .leftCurly | .rightCurly | .needBraces | .oneStatementPerLine
  | .multipleVariableDeclarations | .emptyLineSeparator | .operatorWrap
  | .fileTabCharacter => .formatting
  | .typeName => .classNames
  | .methodName => .methodNames
  | .localVariableName | .localFinalVariableName | .parameterName | .lambdaParameterName
  | .catchParameterName | .memberName | .staticVariableName | .constantName => .variableNames
  | .packageName => .packageNames
  | .todoComment | .trailingComment | .commentsIndentation => .commenting
  | .missingJavadocType => .javadocClass
  | .missingJavadocMethod => .javadocMethod
  | .missingJavadocConstructor => .javadocConstructor
  | .javadocVariable => .javadocField
  | .javadocStyle | .javadocParagraph | .javadocMethod | .javadocTagContinuationIndentation
  | .summaryJavadoc | .nonEmptyAtclauseDescription | .atclauseOrder
  | .invalidJavadocPosition => .javadoc
  | .visibilityModifier => .privateInstances
  | .declarationOrder | .overloadMethodsDeclarationOrder => .ordering
  | .unusedImports | .unusedLocalVariable | .unusedPrivateField | .unusedPrivateMethod
  | .unusedFormalParameter | .emptyStatement => .useless
  | .stringConcatenationInLoop => .stringConcatenation
  | .duplicateCode => .clones
  | .fxmlInlineStyle | .fxmlMissingController | .fxmlHardcodedText => .javaFx
  | .missingOverride => .missingOverride
  | .finalizeOverloaded | .finalizeDoesNotCallSuperFinalize | .finalizeOnlyCallsSuperFinalize
  | .emptyFinalizer | .avoidCallingFinalize | .finalizeShouldBeProtected => .finalizeOverride
  | .unqualifiedStaticMethodCall | .unqualifiedStaticFieldAccess => .unqualifiedStaticAccess
  | .emptyCatchBlock => .emptyCatchBlock

/-- The kinds reported under a category. -/
def ofCategory (c : Category) : List ViolationKind := all.filter (·.category == c)

/-- The ending of a checker's class names. -/
def checkEnding : List Char := "Check".toList

/-- The kind whose capital name or rule has the given letters. -/
def ofLetters? (letters : List Char) : Option ViolationKind :=
  let wanted := Text.fold letters
  (all.find? fun k => Text.fold k.capitalName.toList == wanted).or
    (all.find? fun k => Text.fold k.rule.toList == wanted)

/-- The kind of a rule identifier. -/
def ofRule? (rule : String) : Option ViolationKind :=
  let last := Text.afterLast '.' (Text.strip rule.toList)
  (ofLetters? last).or
    (if checkEnding.isSuffixOf last then ofLetters? (last.take (last.length - checkEnding.length))
      else none)

/-- The kind of a rule identifier, or what is told of an identifier that no kind has. -/
def ofRule (rule : String) : Except Diagnostic ViolationKind :=
  match ofRule? rule with
  | some kind => .ok kind
  | none => .error (.unknownRule rule)

/-- The kind of a capital name. -/
def ofCapitalName? (name : String) : Option ViolationKind := all.find? (·.capitalName == name)

end ViolationKind

end Assay
