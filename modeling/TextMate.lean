import TextMate.Scope.Catalog
import TextMate.Pattern.Blocks
import TextMate.Pattern.Serial
import TextMate.Json.Layout
import TextMate.GrammarFile.Json
import TextMate.Proofs.Reading
import TextMate.Proofs.Composition
import TextMate.Proofs.Replacement
import TextMate.Proofs.Placement
import TextMate.Proofs.Identities
import TextMate.Proofs.Names
import TextMate.Proofs.Wrapping
import TextMate.Proofs.Merging
import TextMate.Proofs.WholeHighlight
import TextMate.Proofs.Resolution
import TextMate.Proofs.Emission
import TextMate.Proofs.Failures
import TextMate.Proofs.Reported
import TextMate.Proofs.Places
import TextMate.Proofs.ReportOrder
import TextMate.Proofs.AllOrNothing
import TextMate.Proofs.Renaming
import TextMate.Proofs.RenamedGrammar
import TextMate.Proofs.Authoring
import TextMate.Proofs.Histories
import TextMate.Proofs.Scripts
import TextMate.Proofs.Independence
import TextMate.Proofs.Locality
import TextMate.Proofs.Mirror
import TextMate.Proofs.RulesInside
import TextMate.Proofs.EmptyRegexes
import TextMate.Proofs.TagCollection
import TextMate.Proofs.JsonSyntax
import TextMate.Proofs.JsonReader
import TextMate.Proofs.JsonBlanks
import TextMate.Proofs.Decoding
import TextMate.Proofs.OuterGroup
import TextMate.Proofs.References
import TextMate.Proofs.SpanGroups
import TextMate.Proofs.NameTable
import TextMate.Proofs.ScopeNames
import TextMate.Proofs.Sets
import TextMate.Proofs.Lexemes
import TextMate.Proofs.Braces
import TextMate.Proofs.GroupCount
import TextMate.Proofs.OneGroup
import TextMate.Proofs.Balanced
import TextMate.Proofs.Division
import TextMate.Proofs.Redirection
import TextMate.Proofs.Nesting
import TextMate.Proofs.BlankPatterns
import TextMate.Proofs.Literals
import TextMate.Proofs.Bounds
import TextMate.Proofs.LetterCase
import TextMate.Proofs.Hyphenation
import TextMate.Proofs.Segments
import TextMate.Proofs.Recasing
import TextMate.Proofs.FileTypes
