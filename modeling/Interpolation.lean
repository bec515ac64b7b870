import Interpolation.Source.Inspect
import Interpolation.Template.Basic
import Interpolation.Proofs.Condition.Joining
import Interpolation.Proofs.Render.Leaves
import Interpolation.Proofs.Tag.Components
import Interpolation.Proofs.Render.Names
import Interpolation.Proofs.Condition.Checks
import Interpolation.Proofs.Render.Faults
import Interpolation.Proofs.Tag.Literals
import Interpolation.Proofs.Number.Rounding
import Interpolation.Proofs.Number.Shortest
import Interpolation.Proofs.Number.Text
import Interpolation.Proofs.Text.Quoted
import Interpolation.Proofs.Value.Description
import Interpolation.Proofs.Tag.Choice
import Interpolation.Proofs.Context.History
import Interpolation.Proofs.Text.Path
import Interpolation.Proofs.Text.Numeral
import Interpolation.Proofs.Value.Entries
import Interpolation.Proofs.Value.Navigation
import Interpolation.Proofs.Source.Position
import Interpolation.Proofs.Tag.Placing
import Interpolation.Proofs.Text.Search
import Interpolation.Proofs.Template.Blocks
import Interpolation.Proofs.Template.Source
import Interpolation.Proofs.Condition.Breaks
import Interpolation.Proofs.Render.Turns
import Interpolation.Proofs.Number.Nearest
import Interpolation.Proofs.Number.Fixed
import Interpolation.Proofs.Number.Order
import Interpolation.Proofs.Value.Equality
import Interpolation.Proofs.Condition.Numbers
import Interpolation.Proofs.Condition.Identity
import Interpolation.Proofs.Context.Paths
import Interpolation.Proofs.Value.Members
import Interpolation.Proofs.Condition.Membership
import Interpolation.Proofs.Source.Offsets
import Interpolation.Proofs.Trimming
import Interpolation.Proofs.Trimming.Order
