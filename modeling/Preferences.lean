import Preferences.Main
import Preferences.Proofs.Store.Isolation
import Preferences.Proofs.Store.Pending
import Preferences.Proofs.Store.Calls
import Preferences.Proofs.Store.Names
import Preferences.Proofs.Store.Delivery
import Preferences.Proofs.Store.Turns
import Preferences.Proofs.Store.Registered
import Preferences.Proofs.Store.CallCounts
import Preferences.Proofs.Source.Merging
import Preferences.Proofs.Source.Statements
import Preferences.Proofs.Generation.Assembly
import Preferences.Proofs.Generation.BaseNames
import Preferences.Proofs.Value.SameSelf
import Preferences.Proofs.Members.Accessors
import Preferences.Proofs.Generation.Wiring
import Preferences.Proofs.Generation.MemberNames
import Preferences.Proofs.Source.Imported
import Preferences.Proofs.Text.Literals
import Preferences.Proofs.Number.ExactInteger
import Preferences.Proofs.Value.SameKeys
import Preferences.Proofs.Store.Keyed
import Preferences.Proofs.Store.Deeds
import Preferences.Proofs.Store.Provenance
import Preferences.Proofs.Store.Kinds
import Preferences.Proofs.Failure.Computations
import Preferences.Proofs.Generation.Repetitions
import Preferences.Proofs.Members.Usable
import Preferences.Proofs.Generation.Outcome
import Preferences.Proofs.Description.Flaws
import Preferences.Proofs.Description.Reported
import Preferences.Proofs.Settings.Reading
import Preferences.Proofs.Generation.Suffixes
import Preferences.Proofs.Description.Derived
import Preferences.Proofs.Store.Grouping
import Preferences.Proofs.Store.Contexts
import Preferences.Proofs.Store.Frames
import Preferences.Proofs.Settings.Types
import Preferences.Proofs.Generation.Alike
import Preferences.Proofs.Description.Completed
import Preferences.Proofs.Description.Documented
import Preferences.Proofs.Generation.Reports
import Preferences.Proofs.CommandLine.Generation
import Preferences.Proofs.Source.ImportOrder
import Preferences.Proofs.Source.Outlines
import Preferences.Proofs.Source.HeaderLines
import Preferences.Proofs.Settings.RoundTrip
import Preferences.Proofs.Generation.Batches
import Preferences.Proofs.Naming.Separators
import Preferences.Proofs.Naming.Boundaries
import Preferences.Proofs.Naming.LowerCase
import Preferences.Proofs.Naming.Stable
import Preferences.Proofs.Naming.Spellings
import Preferences.Proofs.Members.Parameters
import Preferences.Proofs.Store.Nesting
import Preferences.Proofs.Generation.UnbrokenLines
import Preferences.Proofs.Description.Defaults
import Preferences.Proofs.Description.References
import Preferences.Proofs.Description.FirstRejection
import Preferences.Proofs.Settings.Resolvers
import Preferences.Proofs.Workspace.Directories
import Preferences.Proofs.Settings.Nearest
