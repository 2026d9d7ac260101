import InlineAsm.Function.Basic
import InlineAsm.Mnemonic
import InlineAsm.Proofs.DataType.Name
import InlineAsm.Proofs.DataType.Rendering
import InlineAsm.Proofs.DataType.Resolution
import InlineAsm.Proofs.DataType.Scalar
import InlineAsm.Proofs.Function.Call
import InlineAsm.Proofs.Function.Clobbers
import InlineAsm.Proofs.Function.Emitted
import InlineAsm.Proofs.Function.History
import InlineAsm.Proofs.Function.Parameters
import InlineAsm.Proofs.Function.Places
import InlineAsm.Proofs.Function.Walk
import InlineAsm.Proofs.Identity
import InlineAsm.Proofs.Instruction.Preorder
import InlineAsm.Proofs.Instruction.Slots
import InlineAsm.Proofs.Instruction.Text
import InlineAsm.Proofs.Source.Template
import InlineAsm.Proofs.Storage.Agreement
import InlineAsm.Proofs.Storage.Atomic
import InlineAsm.Proofs.Storage.Faults
import InlineAsm.Proofs.Storage.Layout
import InlineAsm.Proofs.Storage.Loading
import InlineAsm.Proofs.Storage.ReadBack
import InlineAsm.Proofs.Storage.RowMajor
import InlineAsm.Proofs.Storage.Single
import InlineAsm.Proofs.Storage.Size
import InlineAsm.Proofs.Storage.Zero
import InlineAsm.Proofs.Value.Json
import InlineAsm.Toolchain.Host
import InlineAsm.Value.Json
