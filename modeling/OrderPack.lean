import OrderPack.Main
import OrderPack.Record.Unpacker
import OrderPack.Proofs.Arguments.Typing
import OrderPack.Proofs.Command.Runs
import OrderPack.Proofs.Descriptor.Grammar
import OrderPack.Proofs.Descriptor.Indexing
import OrderPack.Proofs.Record.Acceptance
import OrderPack.Proofs.Record.Asking
import OrderPack.Proofs.Record.Calls
import OrderPack.Proofs.Record.Concatenation
import OrderPack.Proofs.Record.Extension
import OrderPack.Proofs.Record.FixedText
import OrderPack.Proofs.Record.FixedTextOrder
import OrderPack.Proofs.Record.KeyOrder
import OrderPack.Proofs.Record.Passes
import OrderPack.Proofs.Record.Places
import OrderPack.Proofs.Record.Schedules
import OrderPack.Proofs.Record.Widening
import OrderPack.Proofs.Table.Config
import OrderPack.Proofs.Varint.Addressing
import OrderPack.Proofs.Varint.Locality
import OrderPack.Proofs.Varint.Series
import OrderPack.Proofs.Varint.Sizes
