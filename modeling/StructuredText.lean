import StructuredText.Command.Action
import StructuredText.Command.Arguments
import StructuredText.Command.FileSystem
import StructuredText.Command.Path
import StructuredText.Command.Request
import StructuredText.Command.Run
import StructuredText.Comment
import StructuredText.Diagnostic
import StructuredText.Document.OpenPou
import StructuredText.Document.Parse
import StructuredText.Document.Registers
import StructuredText.Document.State
import StructuredText.Fragment
import StructuredText.Grammar.Assignment
import StructuredText.Grammar.Conditional
import StructuredText.Grammar.Declaration
import StructuredText.Grammar.Header
import StructuredText.Grammar.Pragma
import StructuredText.Grammar.Reader
import StructuredText.Grammar.TypeExpr
import StructuredText.Json
import StructuredText.Keyword
import StructuredText.Listing
import StructuredText.Model.Basic
import StructuredText.Model.Document
import StructuredText.Model.Encoding
import StructuredText.Model.Listing
import StructuredText.Outline
import StructuredText.PlcOpen.Export
import StructuredText.PlcOpen.Markup
import StructuredText.PlcOpen.Options
import StructuredText.Quoted
import StructuredText.Render
import StructuredText.Settings
import StructuredText.StatementTree
import StructuredText.Text.Blank
import StructuredText.Text.CharClass
import StructuredText.Text.Printable
import StructuredText.Text.Split
import StructuredText.Text.Width
import StructuredText.Text.WordCharacter
import StructuredText.Toml.Configuration
import StructuredText.Toml.Reader
import StructuredText.Toml.Table
import StructuredText.Main
import StructuredText.Proofs.Builder
import StructuredText.Proofs.Reading
import StructuredText.Proofs.TreeLines
import StructuredText.Proofs.TreeNumbers
import StructuredText.Proofs.StatementFates
import StructuredText.Proofs.OpenConstruct
import StructuredText.Proofs.Consistency
import StructuredText.Proofs.DocumentGrammar
import StructuredText.Proofs.StructuralDiagnostics
import StructuredText.Proofs.PlainLine
import StructuredText.Proofs.InlineText
import StructuredText.Proofs.PlainCode
import StructuredText.Proofs.CodeReading
import StructuredText.Proofs.Rewriting
import StructuredText.Proofs.RoundTrip
import StructuredText.Proofs.PlainHeader
import StructuredText.Proofs.TypeReading
import StructuredText.Proofs.LineTexts
import StructuredText.Proofs.PlainDeclaration
import StructuredText.Proofs.Skeleton
import StructuredText.Proofs.UnsupportedCode
import StructuredText.Proofs.View
import StructuredText.Proofs.ViewedReading
import StructuredText.Proofs.FragmentTexts
import StructuredText.Proofs.Alignment
import StructuredText.Proofs.Marks
import StructuredText.Proofs.Positions
import StructuredText.Proofs.MarkupReading
import StructuredText.Proofs.ExportReading
import StructuredText.Proofs.LineBreaks
import StructuredText.Proofs.CommentFree
import StructuredText.Proofs.Concatenation
import StructuredText.Proofs.EndOfSource
import StructuredText.Proofs.MemberLines
import StructuredText.Proofs.BlockSource
import StructuredText.Proofs.ModelChange
import StructuredText.Proofs.Registers
import StructuredText.Proofs.RegisterConsistency
import StructuredText.Proofs.Refusal
import StructuredText.Proofs.PendingEnd
import StructuredText.Proofs.DeclarationText
import StructuredText.Proofs.VariableLists
import StructuredText.Proofs.CompleteAssignments
import StructuredText.Proofs.TreeNodes
import StructuredText.Proofs.Extension
import StructuredText.Proofs.SourceOrder
import StructuredText.Proofs.OrderedReading
import StructuredText.Proofs.Paths
import StructuredText.Proofs.CommandEffects
import StructuredText.Proofs.FileTree
import StructuredText.Proofs.LetterCase
import StructuredText.Proofs.RecasedText
import StructuredText.Proofs.RecasedLines
import StructuredText.Proofs.RecasedFragments
import StructuredText.Proofs.RecasedReaders
import StructuredText.Proofs.RecasedHeaders
import StructuredText.Proofs.RecasedStatements
import StructuredText.Proofs.CapitalizedTrees
import StructuredText.Proofs.CapitalizedModel
import StructuredText.Proofs.RecasedBuilder
import StructuredText.Proofs.RecasedReading
import StructuredText.Proofs.Nesting
import StructuredText.Proofs.CommentBytes
import StructuredText.Proofs.StrippedLines
import StructuredText.Proofs.FragmentCover
import StructuredText.Proofs.AtomicPieces
import StructuredText.Proofs.AtomicFragments
import StructuredText.Proofs.ReadParts
import StructuredText.Proofs.Rereading
import StructuredText.Proofs.SingleParameters
import StructuredText.Proofs.BracketedTypes
import StructuredText.Proofs.KeywordFragments
import StructuredText.Proofs.ParameterLists
import StructuredText.Proofs.LeadingPragmas
import StructuredText.Proofs.DeclaredValues
import StructuredText.Proofs.StackedPous
import StructuredText.Proofs.OutlineOrder
import StructuredText.Proofs.OpenSections
import StructuredText.Proofs.AttachedComments
import StructuredText.Proofs.JsonText
import StructuredText.Proofs.JsonValues
import StructuredText.Proofs.EncodedDocument
import StructuredText.Proofs.Slices
import StructuredText.Proofs.SlicedComments
import StructuredText.Proofs.SlicedFragments
import StructuredText.Proofs.SlicedLines
