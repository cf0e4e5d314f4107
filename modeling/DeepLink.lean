import DeepLink.Token.Lexer
import DeepLink.Token.Groups
import DeepLink.Expression
import DeepLink.Router
import DeepLink.Main
import DeepLink.Proofs.Outcome
import DeepLink.Proofs.Route.NormalForm
import DeepLink.Proofs.Route.Building
import DeepLink.Proofs.Template.Spelling
import DeepLink.Proofs.Template.Balance
import DeepLink.Proofs.Template.Parentheses
import DeepLink.Proofs.Template.Nesting
import DeepLink.Proofs.Template.Canonical
import DeepLink.Proofs.Template.ItemGrammar
import DeepLink.Proofs.Template.Items
import DeepLink.Proofs.Template.ItemAcceptance
import DeepLink.Proofs.Template.Names
import DeepLink.Proofs.Template.Tiling
import DeepLink.Proofs.Template.Escaping
import DeepLink.Proofs.Template.Paths
import DeepLink.Proofs.Template.Grammar
import DeepLink.Proofs.Template.Acceptance
import DeepLink.Proofs.Template.RoundTrip
import DeepLink.Proofs.Template.Depth
import DeepLink.Proofs.Template.Canonicalization
import DeepLink.Proofs.Template.Expressions
import DeepLink.Proofs.Template.Expressibility
import DeepLink.Proofs.Template.Levels
import DeepLink.Proofs.Template.Equality
import DeepLink.Proofs.Template.Branches
import DeepLink.Proofs.Template.PlainCharacters
import DeepLink.Proofs.Template.ItemFaults
import DeepLink.Proofs.Template.ItemReasons
import DeepLink.Proofs.Template.GroupFaults
import DeepLink.Proofs.Template.Scans
import DeepLink.Proofs.Template.Scanned
import DeepLink.Proofs.Template.PathParameters
import DeepLink.Proofs.Template.Culprits
import DeepLink.Proofs.Matching.Reading
import DeepLink.Proofs.Matching.Preference
import DeepLink.Proofs.Matching.Soundness
import DeepLink.Proofs.Matching.Query
import DeepLink.Proofs.Matching.Keys
import DeepLink.Proofs.Matching.Assignment
import DeepLink.Proofs.Matching.Branches
import DeepLink.Proofs.Matching.Swapping
import DeepLink.Proofs.Matching.Extension
import DeepLink.Proofs.Matching.Extents
import DeepLink.Proofs.Matching.Wildcards
import DeepLink.Proofs.Matching.Bounds
import DeepLink.Proofs.Matching.Guarantees
import DeepLink.Proofs.Matching.Listing
import DeepLink.Proofs.Rendering.Fitting
import DeepLink.Proofs.Rendering.Choice
import DeepLink.Proofs.Rendering.RoundTrip
import DeepLink.Proofs.Rendering.GroupFree
import DeepLink.Proofs.Rendering.Matched
import DeepLink.Proofs.Rendering.Length
import DeepLink.Proofs.Payload.Json
import DeepLink.Proofs.Router.Offers
import DeepLink.Proofs.Router.Files
import DeepLink.Proofs.Url.Percent
import DeepLink.Proofs.Url.Form
import DeepLink.Proofs.Url.Reading
import DeepLink.Proofs.Url.RoundTrip
import DeepLink.Proofs.Router.Schemes
import DeepLink.Proofs.CommandLine.Printing
import DeepLink.Proofs.CommandLine.Matching
