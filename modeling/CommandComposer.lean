import CommandComposer.Delivery.Desk
import CommandComposer.Dialogue.Script
import CommandComposer.Main
import CommandComposer.Proofs.BlockReference
import CommandComposer.Proofs.Building
import CommandComposer.Proofs.CatalogFilter
import CommandComposer.Proofs.ClauseCollection
import CommandComposer.Proofs.ClauseValues
import CommandComposer.Proofs.CommandForm
import CommandComposer.Proofs.Composing
import CommandComposer.Proofs.Declining
import CommandComposer.Proofs.LineReading
import CommandComposer.Proofs.Literals
import CommandComposer.Proofs.Numerals
import CommandComposer.Proofs.Outcome
import CommandComposer.Proofs.TerminalScript
import CommandComposer.Proofs.Calls
import CommandComposer.Proofs.Notices
import CommandComposer.Proofs.Echoes
import CommandComposer.Proofs.Failures
import CommandComposer.Proofs.Accounting
import CommandComposer.Proofs.Causality
import CommandComposer.Proofs.Decoding
import CommandComposer.Proofs.Handover
import CommandComposer.Proofs.Positions
import CommandComposer.Proofs.Replay
import CommandComposer.Proofs.Offers
import CommandComposer.Proofs.Retrying
import CommandComposer.Proofs.EditDistance
import CommandComposer.Proofs.Rankings
import CommandComposer.Proofs.UnknownBlocks
import CommandComposer.Proofs.EnchantmentRounds
import CommandComposer.Proofs.InputLines
import CommandComposer.Proofs.MenuPicks
import CommandComposer.Proofs.Enclosed
import CommandComposer.Proofs.Destinations
import CommandComposer.Proofs.ClipboardTools
import CommandComposer.Proofs.LoreLines
import CommandComposer.Proofs.FoodParts
import CommandComposer.Proofs.FirstInsertions
