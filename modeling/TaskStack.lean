import TaskStack.Main
import TaskStack.Catalogue
import TaskStack.Proofs.Descriptor.WriteOnce
import TaskStack.Proofs.Descriptor.FirstWriter
import TaskStack.Proofs.Descriptor.Stacking
import TaskStack.Proofs.Session.Moves
import TaskStack.Proofs.Session.Past
import TaskStack.Proofs.Session.Runs
import TaskStack.Proofs.Session.Once
import TaskStack.Proofs.Session.Provenance
import TaskStack.Proofs.Call.Agree
import TaskStack.Proofs.Engine.Local
import TaskStack.Proofs.Engine.Reentrant
import TaskStack.Proofs.Session.Meaning
import TaskStack.Proofs.Descriptor.Contract
import TaskStack.Proofs.Session.Contract
import TaskStack.Proofs.Json.RoundTrip
import TaskStack.Proofs.Registry.Messages
import TaskStack.Proofs.Registry.Posts
import TaskStack.Proofs.Registry.Agreement
import TaskStack.Proofs.Session.Books
import TaskStack.Proofs.Session.Gating
import TaskStack.Proofs.Session.Definitions
import TaskStack.Proofs.Call.Regions
import TaskStack.Proofs.Layer.Layout
import TaskStack.Proofs.Session.Dialogue
import TaskStack.Proofs.Session.Roles
import TaskStack.Proofs.Session.Terms
import TaskStack.Proofs.Engine.Cells
import TaskStack.Proofs.Session.Apart
import TaskStack.Proofs.Session.Locks
import TaskStack.Proofs.Session.Poison
import TaskStack.Proofs.Session.Mending
import TaskStack.Proofs.Session.Parallel
import TaskStack.Proofs.Session.Panics
import TaskStack.Proofs.Call.Resolution
import TaskStack.Proofs.Call.Substitution
import TaskStack.Proofs.Layer.Encoding
import TaskStack.Proofs.Layer.Intake
import TaskStack.Proofs.Layer.Resources
import TaskStack.Proofs.Layer.Rules
import TaskStack.Proofs.Layer.Parallel
import TaskStack.Proofs.Session.Course
import TaskStack.Proofs.Session.Derived
import TaskStack.Proofs.Call.Marks
import TaskStack.Proofs.Session.Marks
import TaskStack.Proofs.CommandLine.Show
import TaskStack.Proofs.Call.Blind
import TaskStack.Proofs.Session.Unresolved
import TaskStack.Proofs.Session.Orderly
import TaskStack.Proofs.Catalogue.Arithmetic
import TaskStack.Proofs.CommandLine.Rerun
