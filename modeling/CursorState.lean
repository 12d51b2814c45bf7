import CursorState.Main
import CursorState.Proofs.Builtin.Suggestion
import CursorState.Proofs.Engine.Bench
import CursorState.Proofs.Grammar.OwnStates
import CursorState.Proofs.Position.CarriageReturns
import CursorState.Proofs.Position.CharWalk
import CursorState.Proofs.Position.CheckedWalk
import CursorState.Proofs.Position.LeadingLines
import CursorState.Proofs.Position.ReadingOrder
import CursorState.Proofs.Position.TabStops
import CursorState.Proofs.Resolution.AfterCursor
import CursorState.Proofs.Resolution.CursorOrder
import CursorState.Proofs.Resolution.Interleaving
import CursorState.Proofs.Resolution.Rendering
import CursorState.Proofs.Service.Arguments
import CursorState.Proofs.Service.Configuration
import CursorState.Proofs.StateTable.BlockOrder
import CursorState.Proofs.StateTable.Concatenation
import CursorState.Proofs.StateTable.ItemKey
import CursorState.Proofs.StateTable.LineParts
import CursorState.Proofs.StateTable.Padding
import CursorState.Proofs.StateTable.PrintedTable
import CursorState.Proofs.StateTable.Refusal
import CursorState.Proofs.StateTable.RoundTrip
import CursorState.Proofs.Text.EditDistance
import CursorState.Proofs.Text.Edits
import CursorState.Proofs.Text.Partition
