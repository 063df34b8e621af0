import SnippetTree.Assembler
import SnippetTree.Proofs.BuildNumbered
import SnippetTree.Proofs.ParseComplete
import SnippetTree.Proofs.ParseSound
import SnippetTree.Proofs.Descent
import SnippetTree.Tree.Numbering
import SnippetTree.Proofs.Outcomes
import SnippetTree.Proofs.Shows
import SnippetTree.Proofs.Schema
import SnippetTree.Proofs.Shares
import SnippetTree.Proofs.Shift
import SnippetTree.Proofs.LineAccounts
import SnippetTree.Proofs.Cuts
import SnippetTree.Proofs.LineIndependence
import SnippetTree.Proofs.Names
import SnippetTree.Proofs.LineLexemes
import SnippetTree.Proofs.Spelling
import SnippetTree.Proofs.Clauses
import SnippetTree.Proofs.RoundTrip
import SnippetTree.Proofs.Bounds
import SnippetTree.Proofs.NestingLimit
import SnippetTree.Proofs.Marks
import SnippetTree.Proofs.Parentheses
import SnippetTree.Proofs.Words
import SnippetTree.Proofs.OnePass
import SnippetTree.Proofs.OnePassLines
import SnippetTree.Proofs.OnePassBuilds
import SnippetTree.Proofs.Postorder
import SnippetTree.Proofs.Keywords
import SnippetTree.Proofs.UnusedTiers
import SnippetTree.Proofs.Lossless
import SnippetTree.Proofs.Respacing
import SnippetTree.Proofs.Outline
import SnippetTree.Proofs.SourceOrder
import SnippetTree.Proofs.Defects
import SnippetTree.Proofs.NestingDepth
import SnippetTree.Proofs.Pruning
import SnippetTree.Proofs.LeadingClosers
import SnippetTree.Proofs.FunctionHeads
import SnippetTree.Proofs.Placeholders
import SnippetTree.Proofs.MissingOperands
import SnippetTree.Proofs.WordOperators
import SnippetTree.Proofs.StructuralLines
import SnippetTree.Proofs.QuotedLiterals
import SnippetTree.Proofs.Traversals
import SnippetTree.Proofs.SameTrees
import SnippetTree.Proofs.AssignmentOperators
import SnippetTree.Proofs.ControlHeaders
import SnippetTree.Proofs.FirstAssignment
import SnippetTree.Proofs.FirstGroup
import SnippetTree.Proofs.Resolution
import SnippetTree.Proofs.LeafCategories
