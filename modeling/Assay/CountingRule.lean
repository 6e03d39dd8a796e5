import Assay.Category
import Assay.Source.StaticAccess

/-!
# Counting rules

The size of a category is what its rule counts in a repository: something in every source file, or
the user-interface descriptions themselves.
-/

namespace Assay

open Source

/-- The files a rule counts in. -/
inductive Population
  | sourceTrees
  | uiDescriptions
  deriving DecidableEq, Repr

namespace Population

/-- Both populations. -/
def all : List Population := [.sourceTrees, .uiDescriptions]

/-- The name of a population. -/
def name : Population → String
  | .sourceTrees => "source_trees"
  | .uiDescriptions => "ui_descriptions"

end Population

/-- What is counted. -/
inductive CountingRule
  | lineSpan
  | declarations (kinds : List DeclarationKind)
  | docCommentLines
  | staticAccesses
  | catchClauses
  | loops
  | uiDescriptions
  deriving DecidableEq, Repr

namespace CountingRule

/-- The files a rule counts in. -/
def population : CountingRule → Population
  | .uiDescriptions => .uiDescriptions
  | _ => .sourceTrees

/-- What one file adds to the size of a category. -/
def count (rule : CountingRule) (u : CompilationUnit) : Nat :=
  match rule with
  | .lineSpan => u.lineSpan
  | .declarations kinds => u.countDeclarations kinds
  | .docCommentLines => u.docCommentLines
  | .staticAccesses => u.countStaticAccesses
  | .catchClauses => u.catchClauses.length
  | .loops => u.countLoops LoopKind.all
  | .uiDescriptions => 1

/-- The form in which a rule is displayed. -/
def describe : CountingRule → String
  | .lineSpan => "LineSpanRule()"
  | .declarations kinds =>
    "DeclarationRule(" ++ String.intercalate ", " (kinds.map (·.name)) ++ ")"
  | .docCommentLines => "DocCommentLinesRule()"
  | .staticAccesses => "StaticAccessRule()"
  | .catchClauses => "CatchClauseRule()"
  | .loops => "LoopRule()"
  | .uiDescriptions => "UiDescriptionRule()"

end CountingRule

/-- The rule that gives the size of a category. -/
def Category.rule : Category → CountingRule
  | .formatting | .commenting | .useless | .clones => .lineSpan
  | .classNames => .declarations [.classType, .interfaceType, .enumType]
  | .methodNames | .javadocMethod | .missingOverride | .finalizeOverride => .declarations [.method]
  | .variableNames => .declarations [.variableDeclarator, .parameter]
  | .packageNames => .declarations [.package]
  | .javadocClass => .declarations [.classType, .interfaceType]
  | .javadocConstructor => .declarations [.constructor]
  | .javadocField => .declarations [.staticField, .instanceField]
  | .javadoc => .docCommentLines
  | .privateInstances => .declarations [.instanceField]
  | .ordering => .declarations [.staticField, .instanceField, .constructor, .method]
  | .stringConcatenation => .loops
  | .javaFx => .uiDescriptions
  | .unqualifiedStaticAccess => .staticAccesses
  | .emptyCatchBlock => .catchClauses

/-- How a category is sized: the name it is reported under and its rule. -/
structure Profile where
  displayName : String
  rule : CountingRule
  deriving DecidableEq, Repr

/-- The profile of a category. -/
def Category.profile (c : Category) : Profile := ⟨c.displayName, c.rule⟩

end Assay
