import C166Codec.Text.Blank
import C166Codec.Text.Case
import C166Codec.Text.Hex
import C166Codec.Text.Printable
import C166Codec.Text.Quoted
import C166Codec.Machine.SpecialRegister
import C166Codec.Machine.Register
import C166Codec.Machine.Condition
import C166Codec.Machine.ShortAddress
import C166Codec.Machine.Word
import C166Codec.Encoding.Field
import C166Codec.Encoding.Flags
import C166Codec.Encoding.Shape
import C166Codec.Encoding.Layout
import C166Codec.Encoding.Fault
import C166Codec.Encoding.Codec
import C166Codec.Encoding.Opcode
import C166Codec.Instruction.Basic
import C166Codec.Instruction.Render
import C166Codec.Instruction.Decode
import C166Codec.Source.Fault
import C166Codec.Source.Lexeme
import C166Codec.Source.Number
import C166Codec.Source.Operand
import C166Codec.Source.Statement
import C166Codec.Source.Select
import C166Codec.Source.Data
import C166Codec.Source.Window
import C166Codec.Source.Program
import C166Codec.Listing.Window
import C166Codec.Listing.Data
import C166Codec.Listing.Flow
import C166Codec.Listing.Print
import C166Codec.Command
import C166Codec.Main
import C166Codec.Proofs.ExtWindow
import C166Codec.Proofs.Bytes
import C166Codec.Proofs.Reencode
import C166Codec.Proofs.CodecRoundTrip
import C166Codec.Proofs.FirstPass
import C166Codec.Proofs.TwoPass
import C166Codec.Proofs.HexText
import C166Codec.Proofs.Needs
import C166Codec.Proofs.OperandText
import C166Codec.Proofs.DecodeOutcome
import C166Codec.Proofs.LabelTargets
import C166Codec.Proofs.ListingShape
import C166Codec.Proofs.Selection
import C166Codec.Proofs.FlowSearch
import C166Codec.Proofs.CaseFold
import C166Codec.Proofs.CaseBlind
import C166Codec.Proofs.LabelNames
import C166Codec.Proofs.ReportedLine
import C166Codec.Proofs.SlotText
import C166Codec.Proofs.LineText
import C166Codec.Proofs.OperandMeaning
import C166Codec.Proofs.TextMeaning
