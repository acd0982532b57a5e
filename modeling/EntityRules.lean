import EntityRules.Main
import EntityRules.Proofs.Entity.Set
import EntityRules.Proofs.Entity.Store
import EntityRules.Proofs.Selector.Meaning
import EntityRules.Proofs.Selector.Registry
import EntityRules.Proofs.Selector.History
import EntityRules.Proofs.Selector.Watch
import EntityRules.Proofs.Selector.MatchSets
import EntityRules.Proofs.Rule.Book
import EntityRules.Proofs.Document.Frame
import EntityRules.Proofs.Rule.Patch
import EntityRules.Proofs.Rule.Pass
import EntityRules.Proofs.Entity.Pools
import EntityRules.Proofs.Selector.Grammar
import EntityRules.Proofs.Selector.Canonical
import EntityRules.Proofs.Numeric.Rounding
import EntityRules.Proofs.Numeric.Value
import EntityRules.Proofs.Document.Values
import EntityRules.Proofs.Document.RoundTrip
import EntityRules.Proofs.Assoc
import EntityRules.Proofs.Document.Given
import EntityRules.Proofs.Document.Merge
import EntityRules.Proofs.Engine.Delivery
import EntityRules.Proofs.Engine.Scenes
import EntityRules.Proofs.Engine.Core
import EntityRules.Proofs.Engine.Runs
import EntityRules.Proofs.Engine.Events
import EntityRules.Proofs.Json.Equality
import EntityRules.Proofs.Rule.Alike
import EntityRules.Proofs.Engine.Population
import EntityRules.Proofs.Engine.Isolation
import EntityRules.Proofs.Engine.Reentry
import EntityRules.Proofs.Document.Effect
import EntityRules.Proofs.Document.Nulls
import EntityRules.Proofs.Document.Attributes
import EntityRules.Proofs.Document.Finite
import EntityRules.Proofs.Rule.Writes
import EntityRules.Proofs.Rule.Untouched
import EntityRules.Proofs.Engine.Finite
import EntityRules.Proofs.Rule.Handles
import EntityRules.Proofs.Expr.Forms
import EntityRules.Proofs.Expr.Confined
import EntityRules.Proofs.Expr.Resolve
import EntityRules.Proofs.Expr.Names
import EntityRules.Proofs.Entity.Locality
import EntityRules.Proofs.Rule.Footprint
import EntityRules.Proofs.Rule.Exchange
import EntityRules.Proofs.Text.Dots
import EntityRules.Proofs.Rule.Assignment
import EntityRules.Proofs.Rule.Accounting
import EntityRules.Proofs.Entity.Revise
import EntityRules.Proofs.Document.Changes
import EntityRules.Proofs.Document.Members
import EntityRules.Proofs.Document.Revision
import EntityRules.Proofs.Document.Pieces
import EntityRules.Proofs.Rule.Command
import EntityRules.Proofs.Entity.SetAlgebra
import EntityRules.Proofs.Rule.Survivors
import EntityRules.Proofs.Engine.Treatments
import EntityRules.Proofs.Scene.Compilation
import EntityRules.Proofs.Selector.Position
import EntityRules.Proofs.Selector.Refinement
import EntityRules.Proofs.Expr.Collections
import EntityRules.Proofs.Expr.Paths
import EntityRules.Proofs.Expr.Equality
import EntityRules.Proofs.Numeric.Truncation
import EntityRules.Proofs.Expr.Substring
import EntityRules.Proofs.Diagnostics.Sinks
import EntityRules.Proofs.Rule.Target
