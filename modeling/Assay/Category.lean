import Assay.Text.Case
import Assay.Text.Space

/-!
# Report categories

The twenty-one headings that violations are reported under. A category is found by any of three
spellings: its value, the same name in capitals with underscores, or the name it is displayed under;
letter case, blanks and underscores do not matter.
-/

namespace Assay

/-- The headings of a style report. -/
inductive Category
  | formatting
  | classNames
  | methodNames
  | variableNames
  | packageNames
  | commenting
  | javadocClass
  | javadocMethod
  | javadocConstructor
  | javadocField
  | javadoc
  | privateInstances
  | ordering
  | useless
  | stringConcatenation
  | clones
  | javaFx
  | missingOverride
  | finalizeOverride
  | unqualifiedStaticAccess
  | emptyCatchBlock
  deriving DecidableEq, Repr

namespace Category

/-- All categories, in the order of reports. -/
def all : List Category :=
  [.formatting, .classNames, .methodNames, .variableNames, .packageNames, .commenting,
    .javadocClass, .javadocMethod, .javadocConstructor, .javadocField, .javadoc, .privateInstances,
    .ordering, .useless, .stringConcatenation, .clones, .javaFx, .missingOverride,
    .finalizeOverride, .unqualifiedStaticAccess, .emptyCatchBlock]

/-- The value that stands for a category in data. -/
def value : Category → String
  | .formatting => "Formatting"
  | .classNames => "ClassNames"
  | .methodNames => "MethodNames"
  | .variableNames => "VariableNames"
  | .packageNames => "PackageNames"
  | .commenting => "Commenting"
  | .javadocClass => "JavadocClass"
  | .javadocMethod => "JavadocMethod"
  | .javadocConstructor => "JavadocConstructor"
  | .javadocField => "JavadocField"
  | .javadoc => "Javadoc"
  | .privateInstances => "PrivateInstances"
  | .ordering => "Ordering"
  | .useless => "Useless"
  | .stringConcatenation => "StringConcatenation"
  | .clones => "Clones"
  | .javaFx => "JavaFX"
  | .missingOverride => "MissingOverride"
  | .finalizeOverride => "FinalizeOverride"
  | .unqualifiedStaticAccess => "UnqualifiedStaticAccess"
  | .emptyCatchBlock => "EmptyCatchBlock"

/-- The name of a category in capitals. -/
def capitalName : Category → String
  | .formatting => "FORMATTING"
  | .classNames => "CLASS_NAMES"
  | .methodNames => "METHOD_NAMES"
  | .variableNames => "VARIABLE_NAMES"
  | .packageNames => "PACKAGE_NAMES"
  | .commenting => "COMMENTING"
  | .javadocClass => "JAVADOC_CLASS"
  | .javadocMethod => "JAVADOC_METHOD"
  | .javadocConstructor => "JAVADOC_CONSTRUCTOR"
  | .javadocField => "JAVADOC_FIELD"
  | .javadoc => "JAVADOC"
  | .privateInstances => "PRIVATE_INSTANCES"
  | .ordering => "ORDERING"
  | .useless => "USELESS"
  | .stringConcatenation => "STRING_CONCATENATION"
  | .clones => "CLONES"
  | .javaFx => "JAVA_FX"
  | .missingOverride => "MISSING_OVERRIDE"
  | .finalizeOverride => "FINALIZE_OVERRIDE"
  | .unqualifiedStaticAccess => "UNQUALIFIED_STATIC_ACCESS"
  | .emptyCatchBlock => "EMPTY_CATCH_BLOCK"

/-- The name a category is displayed under. -/
def displayName : Category → String
  | .formatting => "Formatting"
  | .classNames => "Class Names"
  | .methodNames => "Method Names"
  | .variableNames => "Variable Names"
  | .packageNames => "Package Names"
  | .commenting => "Commenting"
  | .javadocClass => "Javadoc Class"
  | .javadocMethod => "Javadoc Method"
  | .javadocConstructor => "Javadoc Constructor"
  | .javadocField => "Javadoc Field"
  | .javadoc => "Javadoc Formatting"
  | .privateInstances => "Private Instances"
  | .ordering => "Ordering"
  | .useless => "Useless"
  | .stringConcatenation => "String Concatenation"
  | .clones => "Clones"
  | .javaFx => "Java FX"
  | .missingOverride => "Missing Override"
  | .finalizeOverride => "Finalize Override"
  | .unqualifiedStaticAccess => "Unqualified Static Access"
  | .emptyCatchBlock => "Empty Catch Block"

/-- A name without blanks and underscores, its letters folded. -/
def key (name : String) : List Char :=
  Text.fold (name.toList.filter fun c => !Text.isBlank c && c != '_')

/-- The spellings a category is found by. -/
def spellings (c : Category) : List String := [c.value, c.capitalName, c.displayName]

/-- The category of a name in any spelling. -/
def ofName? (name : String) : Option Category :=
  all.find? fun c => (c.spellings.map key).contains (key name)

/-- The category of a value. -/
def ofValue? (value : String) : Option Category := all.find? (·.value == value)

end Category

end Assay
