import LineTemplate.Text.Blank
import LineTemplate.Text.Shapeless
import LineTemplate.Fault
import LineTemplate.Numeral
import LineTemplate.Options
import LineTemplate.Line
import LineTemplate.Placeholder
import LineTemplate.Directive
import LineTemplate.Conditional
import LineTemplate.Dictionary
import LineTemplate.Definition
import LineTemplate.Substitution
import LineTemplate.Expansion
import LineTemplate.Reference
import LineTemplate.Text.Utf8
import LineTemplate.Number
import LineTemplate.Json
import LineTemplate.Json.Token
import LineTemplate.Json.Reader
import LineTemplate.Json.Printer
import LineTemplate.TagFile
import LineTemplate.FileTree
import LineTemplate.Source
import LineTemplate.Text.Quoted
import LineTemplate.CommandLine.Session
import LineTemplate.Main
import LineTemplate.Proofs.Balance
import LineTemplate.Proofs.Production
import LineTemplate.Proofs.Forest
import LineTemplate.Proofs.Meaning
import LineTemplate.Proofs.Imbalance
import LineTemplate.Proofs.TagFiles
import LineTemplate.Proofs.OptionSpan
import LineTemplate.Proofs.Dependence
import LineTemplate.Proofs.LineLayout
import LineTemplate.Proofs.BreakStyle
import LineTemplate.Proofs.Composition
import LineTemplate.Proofs.DeadBranch
import LineTemplate.Proofs.Warnings
import LineTemplate.Proofs.PlainText
import LineTemplate.Proofs.Decoding
import LineTemplate.Proofs.FileTrees
import LineTemplate.Proofs.Sessions
import LineTemplate.Proofs.FrontEnds
import LineTemplate.Proofs.TagNames
import LineTemplate.Proofs.Completion
import LineTemplate.Proofs.ListedNames
import LineTemplate.Proofs.Strictness
import LineTemplate.Proofs.Runs
import LineTemplate.Proofs.Pattern
import LineTemplate.Proofs.PlaceholderSpelling
import LineTemplate.Proofs.PlaceholderPattern
import LineTemplate.Proofs.PlaceholderScan
import LineTemplate.Proofs.DirectiveGrammar
import LineTemplate.Proofs.SubstitutedLine
import LineTemplate.Proofs.NameUses
import LineTemplate.Proofs.ReferencePlaces
import LineTemplate.Proofs.Streaming
import LineTemplate.Proofs.OptionLists
import LineTemplate.Proofs.Widths
import LineTemplate.Proofs.InPlace
import LineTemplate.Proofs.TagObjects
import LineTemplate.Proofs.ArrayValues
import LineTemplate.Proofs.Definitions
