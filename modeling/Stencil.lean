import Stencil.Number.Rough
import Stencil.Path.Template
import Stencil.Expr.Interchange
import Stencil.Shape.TypeExpr
import Stencil.Value.Document
import Stencil.Settings.Source
import Stencil.Session.Script
import Stencil.Proofs.Expr.RoundTrip
import Stencil.Proofs.Expr.Nesting
import Stencil.Proofs.Shape.Keeping
import Stencil.Proofs.Scope.Log
import Stencil.Proofs.Scope.History
import Stencil.Proofs.Shape.Members
import Stencil.Proofs.Shape.Suggesting
import Stencil.Proofs.Check.Repeating
import Stencil.Proofs.Session.Fields
import Stencil.Proofs.Session.MapKeys
import Stencil.Proofs.Expr.Pieces
import Stencil.Proofs.Expr.Numbers
import Stencil.Proofs.Expr.Operands
import Stencil.Proofs.Expr.Containment
import Stencil.Proofs.Expr.Precedence
import Stencil.Proofs.Expr.Dispatch
import Stencil.Proofs.Expr.Decimals
import Stencil.Proofs.Session.Padding
import Stencil.Proofs.Expr.Occurrences
import Stencil.Proofs.Session.Bodies
import Stencil.Proofs.Session.Renewal
import Stencil.Proofs.Session.Sharing
import Stencil.Proofs.Shape.Guarding
import Stencil.Proofs.Shape.Building
import Stencil.Proofs.Session.Depths
import Stencil.Proofs.Session.Finishing
import Stencil.Proofs.Check.Composing
import Stencil.Proofs.Expr.Limit
import Stencil.Proofs.Expr.Quotations
import Stencil.Proofs.Expr.Sequences
import Stencil.Proofs.Expr.Spacing
import Stencil.Proofs.Check.Editing
import Stencil.Proofs.Binding.Extending
import Stencil.Proofs.Session.Recording
import Stencil.Proofs.Naming.Singular
import Stencil.Proofs.Path.Suggesting
import Stencil.Proofs.Path.Mentioning
import Stencil.Proofs.Path.Ordering
import Stencil.Proofs.Expr.Integers
import Stencil.Proofs.Value.Recovering
import Stencil.Proofs.Expr.Interchanging
import Stencil.Proofs.Expr.Balance
import Stencil.Proofs.Expr.Hits
import Stencil.Proofs.Text.Octets
import Stencil.Proofs.Expr.Encoding
import Stencil.Proofs.Shape.Alike
