import Toolbar.Cache.Deferred
import Toolbar.Control.Build
import Toolbar.Control.View
import Toolbar.Event.Delivery
import Toolbar.Proofs.Cache.SingleLoad
import Toolbar.Proofs.Expr.Grammar
import Toolbar.Proofs.Expr.References
import Toolbar.Proofs.Pipeline.Faults
import Toolbar.Proofs.Pipeline.Outcome
import Toolbar.Proofs.Pipeline.Overlap
import Toolbar.Proofs.Pipeline.Refresh
import Toolbar.Proofs.Pipeline.Restart
import Toolbar.Proofs.Session.Transparency
import Toolbar.Proofs.Template.Positional
import Toolbar.Settings.EnvFile
import Toolbar.StandIn.Template
import Toolbar.Proofs.Cache.Leaving
import Toolbar.Proofs.Cache.Ownership
import Toolbar.Proofs.Session.Frame
import Toolbar.Proofs.Pipeline.TearDown
import Toolbar.Proofs.Control.Handover
import Toolbar.Proofs.Pipeline.Presentation
import Toolbar.Proofs.Pipeline.Latest
import Toolbar.Proofs.Value.Normal
import Toolbar.Proofs.Value.Canonical
import Toolbar.Proofs.Markup.Bar
import Toolbar.Proofs.Cache.Waiting
import Toolbar.Proofs.Session.Loads
import Toolbar.Proofs.Expr.Quotation
import Toolbar.Proofs.Expr.Chain
import Toolbar.Proofs.Template.Args
import Toolbar.Proofs.Expr.Prompt
import Toolbar.Proofs.Control.Listing
import Toolbar.Proofs.Action.Course
import Toolbar.Proofs.Event.Calls
import Toolbar.Proofs.Method.Positions
import Toolbar.Proofs.Settings.Merge
import Toolbar.Proofs.Expr.Instants
import Toolbar.Proofs.Method.Radix
import Toolbar.Proofs.Service.Replies
