import HostExpr.Config.Load
import HostExpr.Eval.Compiled
import HostExpr.Floating.Bits
import HostExpr.Registry.Core
import HostExpr.Proofs.Eval.Agreement
import HostExpr.Proofs.Eval.Congruence
import HostExpr.Proofs.Chain.Order
import HostExpr.Proofs.Eval.Search
import HostExpr.Proofs.Cache.Lookup
import HostExpr.Proofs.Cache.History
import HostExpr.Proofs.Session.Basic
import HostExpr.Proofs.Session.Declining
import HostExpr.Proofs.Session.Invariant
import HostExpr.Proofs.Session.Remembering
import HostExpr.Proofs.Conversion.Conforms
import HostExpr.Proofs.Conversion.Packing
import HostExpr.Proofs.Session.Transparency
import HostExpr.Proofs.Eval.Boundary
import HostExpr.Proofs.Conversion.Blame
import HostExpr.Proofs.Registry.Selection
import HostExpr.Proofs.Expr.Decoding
import HostExpr.Proofs.Expr.Tokens
import HostExpr.Proofs.Expr.Literals
import HostExpr.Proofs.Expr.Reading
import HostExpr.Proofs.Expr.Paths
import HostExpr.Proofs.Expr.RoundTrip
import HostExpr.Proofs.Conversion.Conceals
import HostExpr.Proofs.Conversion.Policies
import HostExpr.Proofs.Registry.Acceptance
import HostExpr.Proofs.Floating.Denotation
import HostExpr.Proofs.Floating.Exactness
import HostExpr.Proofs.Conversion.Narrowing
import HostExpr.Proofs.Registry.Shape
import HostExpr.Proofs.Session.Converters
import HostExpr.Proofs.Session.Serving
import HostExpr.Proofs.Chain.History
import HostExpr.Proofs.Hierarchy.Lineage
import HostExpr.Proofs.Registry.Inheritance
import HostExpr.Proofs.Eval.Agenda
import HostExpr.Proofs.Eval.Conduct
import HostExpr.Proofs.Eval.Succession
import HostExpr.Expr.Builder
import HostExpr.Proofs.Expr.Slices
import HostExpr.Proofs.Expr.Building
import HostExpr.Proofs.Expr.Matching
import HostExpr.Proofs.Expr.Productions
import HostExpr.Proofs.Expr.Reals
import HostExpr.Proofs.Expr.Numerals
import HostExpr.Proofs.Expr.Totality
import HostExpr.Proofs.Expr.Infinities
import HostExpr.Proofs.Expr.Quotations
import HostExpr.Proofs.Expr.Subtrees
import HostExpr.Proofs.Expr.Numbering
import HostExpr.Proofs.Expr.Spans
import HostExpr.Proofs.Eval.ActiveObject
import HostExpr.Proofs.Eval.Extraction
import HostExpr.Proofs.Eval.Polling
import HostExpr.Proofs.Chain.Registrations
import HostExpr.Proofs.Hierarchy.Climb
import HostExpr.Proofs.Registry.Ancestry
import HostExpr.Proofs.Eval.Assignment
import HostExpr.Proofs.Registry.Choice
import HostExpr.Proofs.Operation.Integers
import HostExpr.Proofs.Floating.Order
import HostExpr.Proofs.Floating.Nearest
import HostExpr.Proofs.Floating.Overflow
import HostExpr.Proofs.Operation.Coherence
import HostExpr.Proofs.Operation.Promotion
import HostExpr.Proofs.Conversion.Texts
