import SlotRecord.Cbor.Decode
import SlotRecord.Cbor.Writer
import SlotRecord.Decimal.Style
import SlotRecord.Dict
import SlotRecord.Fault
import SlotRecord.Json.Decode
import SlotRecord.Json.Writer
import SlotRecord.Number
import SlotRecord.Proofs.Binary64.Bits
import SlotRecord.Proofs.Binary64.Decimals
import SlotRecord.Proofs.Binary64.Nearest
import SlotRecord.Proofs.Binary64.Rounding
import SlotRecord.Proofs.Cbor.Decoded
import SlotRecord.Proofs.Cbor.Decoding
import SlotRecord.Proofs.Cbor.Document
import SlotRecord.Proofs.Cbor.Extension
import SlotRecord.Proofs.Cbor.Extent
import SlotRecord.Proofs.Cbor.Head
import SlotRecord.Proofs.Cbor.Skipping
import SlotRecord.Proofs.Decimal.Notation
import SlotRecord.Proofs.Decimal.Numeral
import SlotRecord.Proofs.Decimal.Shortest
import SlotRecord.Proofs.Decimal.Thresholds
import SlotRecord.Proofs.Denotation
import SlotRecord.Proofs.Dict
import SlotRecord.Proofs.Dict.Contents
import SlotRecord.Proofs.Dict.Keys
import SlotRecord.Proofs.Json.Agreement
import SlotRecord.Proofs.Json.Decoded
import SlotRecord.Proofs.Json.Decoding
import SlotRecord.Proofs.Json.Document
import SlotRecord.Proofs.Json.Extension
import SlotRecord.Proofs.Json.Extent
import SlotRecord.Proofs.Json.String
import SlotRecord.Proofs.Number
import SlotRecord.Proofs.Number.Accessors
import SlotRecord.Proofs.Number.RealText
import SlotRecord.Proofs.Prolonged
import SlotRecord.Proofs.Record.Access
import SlotRecord.Proofs.Record.Canonical
import SlotRecord.Proofs.Record.Digest
import SlotRecord.Proofs.Record.Filling
import SlotRecord.Proofs.Record.Framing
import SlotRecord.Proofs.Record.Making
import SlotRecord.Proofs.Record.Parts
import SlotRecord.Proofs.Record.Persistence
import SlotRecord.Proofs.Record.Reassembly
import SlotRecord.Proofs.Record.Rendering
import SlotRecord.Proofs.Record.Replacing
import SlotRecord.Proofs.Record.Sequence
import SlotRecord.Proofs.Record.Traversal
import SlotRecord.Proofs.Schema.Building
import SlotRecord.Proofs.Schema.Flaws
import SlotRecord.Proofs.Schema.Labels
import SlotRecord.Proofs.Schema.Tables
import SlotRecord.Proofs.Text.Digits
import SlotRecord.Proofs.Text.Literal
import SlotRecord.Proofs.Text.Order
import SlotRecord.Proofs.Text.Spelling
import SlotRecord.Proofs.Value.Decoder
import SlotRecord.Proofs.Value.Equality
import SlotRecord.Proofs.Value.Equivalence
import SlotRecord.Proofs.Value.Everywhere
import SlotRecord.Proofs.Value.Forms
import SlotRecord.Proofs.Value.Narrowed
import SlotRecord.Proofs.Value.Places
import SlotRecord.Proofs.Value.Rendering
import SlotRecord.Proofs.Value.Shown
import SlotRecord.Proofs.Wire.Addressable
import SlotRecord.Proofs.Wire.Basic
import SlotRecord.Proofs.Wire.Cbor
import SlotRecord.Proofs.Wire.Contents
import SlotRecord.Proofs.Wire.Fields
import SlotRecord.Proofs.Wire.Json
import SlotRecord.Proofs.Wire.Layout
import SlotRecord.Proofs.Wire.Refusal
import SlotRecord.Proofs.Wire.Sources
import SlotRecord.Proofs.Wire.Stability
import SlotRecord.Proofs.Wire.Truncation
import SlotRecord.Proofs.Workspace.Accounts
import SlotRecord.Proofs.Workspace.Arguments
import SlotRecord.Proofs.Workspace.Asking
import SlotRecord.Proofs.Workspace.Commands
import SlotRecord.Proofs.Workspace.Effects
import SlotRecord.Proofs.Workspace.Records
import SlotRecord.Proofs.Workspace.Registration
import SlotRecord.Proofs.Workspace.Retirement
import SlotRecord.Proofs.Workspace.Tracking
import SlotRecord.Proofs.Workspace.Updating
import SlotRecord.Record.Parts
import SlotRecord.Record.Traverse
import SlotRecord.Record.Update
import SlotRecord.Schema.Build
import SlotRecord.Text.Digits
import SlotRecord.Text.Literal
import SlotRecord.Value.Digest
import SlotRecord.Value.Render
import SlotRecord.Wire.Cbor
import SlotRecord.Wire.Json
import SlotRecord.Workspace.Command
