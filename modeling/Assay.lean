import Assay.Accident
import Assay.Category
import Assay.CommandLine.Grammar
import Assay.CommandLine.Invocation
import Assay.CommandLine.Run
import Assay.CommandLine.Surroundings
import Assay.CountingRule
import Assay.Diagnostic
import Assay.Event
import Assay.Failure
import Assay.FileTree
import Assay.Json.File
import Assay.Json.Printer
import Assay.Json.Reader
import Assay.Json.Value
import Assay.Machine
import Assay.Main
import Assay.Markup.Coding
import Assay.Markup.Content
import Assay.Markup.Declarations
import Assay.Markup.Doctype
import Assay.Markup.Document
import Assay.Markup.Element
import Assay.Markup.Fault
import Assay.Markup.Namespace
import Assay.Markup.Scan
import Assay.Markup.Token
import Assay.Markup.Value
import Assay.Number.Binary64
import Assay.Number.Shortest
import Assay.Path
import Assay.Report.Checkstyle
import Assay.Report.Fault
import Assay.Report.Reader
import Assay.Repository
import Assay.Rubric.Criterion
import Assay.Rubric.Fault
import Assay.Rubric.Reader
import Assay.Score
import Assay.ScoreTable
import Assay.Source.Body
import Assay.Source.CompilationUnit
import Assay.Source.Declaration
import Assay.Source.Fault
import Assay.Source.File
import Assay.Source.Header
import Assay.Source.Lexeme
import Assay.Source.Lexer
import Assay.Source.Lookahead
import Assay.Source.Parser
import Assay.Source.StaticAccess
import Assay.Source.Token
import Assay.Source.Vocabulary
import Assay.Survey
import Assay.Text.Case
import Assay.Text.CharacterSet
import Assay.Text.CodePage.Basic
import Assay.Text.CodePage.Dos
import Assay.Text.CodePage.Iso
import Assay.Text.CodePage.Macintosh
import Assay.Text.CodePage.Regional
import Assay.Text.CodePage.Windows
import Assay.Text.Digit
import Assay.Text.Integer
import Assay.Text.Layout
import Assay.Text.NameLetter
import Assay.Text.Order
import Assay.Text.Printable
import Assay.Text.Quoted
import Assay.Text.Ranges
import Assay.Text.Space
import Assay.Text.Surrogate
import Assay.Text.Utf8
import Assay.Text.Word
import Assay.Violation
import Assay.ViolationKind
import Assay.Workers
import Assay.Proofs.Reading
import Assay.Proofs.Word
import Assay.Proofs.TypeGrammar
import Assay.Proofs.ExpressionRound
import Assay.Proofs.Bracket
import Assay.Proofs.BracketExpressions
import Assay.Proofs.BracketMembers
import Assay.Proofs.BracketBalance
import Assay.Proofs.ExpressionAccesses
import Assay.Proofs.FactOrder
import Assay.Proofs.MemberOrder
import Assay.Proofs.Progress
import Assay.Proofs.LookaheadEnds
import Assay.Proofs.ProgressHeader
import Assay.Proofs.FactConsistency
import Assay.Proofs.ProgressExpressions
import Assay.Proofs.ProgressMembers
import Assay.Proofs.TokenLines
import Assay.Proofs.FrontEnd
import Assay.Proofs.SimulationFile
import Assay.Proofs.LiteralTexts
import Assay.Proofs.LexemeEnds
import Assay.Proofs.TokenLayout
import Assay.Proofs.Delimiters
import Assay.Proofs.CommentOpenings
import Assay.Proofs.TextBlockEnds
import Assay.Proofs.LexemeSpacing
import Assay.Proofs.NameChains
import Assay.Proofs.PaymentRules
import Assay.Proofs.PaymentExpressions
import Assay.Proofs.PaymentMembers
import Assay.Proofs.FactCounts
import Assay.Proofs.StatementGrammar
import Assay.Proofs.StatementReading
import Assay.Proofs.StatementStructure
import Assay.Proofs.ClassTypes
import Assay.Proofs.ForHeaders
import Assay.Proofs.ArgumentCount
import Assay.Proofs.DeclarationGrammar
import Assay.Proofs.HeaderReading
import Assay.Proofs.DeclarationReading
import Assay.Proofs.ExpressionForms
import Assay.Proofs.DeclaratorLists
import Assay.Proofs.LambdaParameters
import Assay.Proofs.CastOperands
import Assay.Proofs.CaseLabels
import Assay.Proofs.FileDeclarations
import Assay.Proofs.NestedBlocks
import Assay.Proofs.Traversal
import Assay.Proofs.SurveyMemory
import Assay.Proofs.RubricScores
import Assay.Proofs.Banding
import Assay.Proofs.ScoreOrder
import Assay.Proofs.ViolationGroups
import Assay.Proofs.RubricLoading
import Assay.Proofs.RubricFaults
import Assay.Proofs.ReportFaults
import Assay.Proofs.LayoutInvariance
import Assay.Proofs.WorkerPool
import Assay.Proofs.WorkerSchedules
import Assay.Proofs.ReportFormats
import Assay.Proofs.FileFront
import Assay.Proofs.FileItems
import Assay.Proofs.FileAnnotations
import Assay.Proofs.FileComposition
import Assay.Proofs.DeclaredNames
import Assay.Proofs.ReportEntries
import Assay.Proofs.ReportElements
import Assay.Proofs.HeaderBarriers
import Assay.Proofs.MemberHeaders
import Assay.Proofs.AnnotatedMembers
import Assay.Proofs.TypeLookahead
import Assay.Proofs.RuleIdentifiers
import Assay.Proofs.RepositoryListing
