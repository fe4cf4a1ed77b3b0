import ScriptStack.Fault.Family
import ScriptStack.Log.Registry
import ScriptStack.Proofs.Log.Delivery
import ScriptStack.Proofs.Number.Encodings
import ScriptStack.Proofs.Number.Positional
import ScriptStack.Proofs.Number.SignFlip
import ScriptStack.Proofs.Program.Collision
import ScriptStack.Proofs.Program.Commitment
import ScriptStack.Proofs.Program.Consumption
import ScriptStack.Proofs.Program.Equality
import ScriptStack.Proofs.Program.Failure
import ScriptStack.Proofs.Program.Lifo
import ScriptStack.Proofs.Program.Logging
import ScriptStack.Proofs.Program.Mutation
import ScriptStack.Proofs.Program.Position
import ScriptStack.Proofs.Program.Request
import ScriptStack.Proofs.Program.Sequence
import ScriptStack.Proofs.Program.Sharing
import ScriptStack.Proofs.Program.Snapshot
import ScriptStack.Proofs.Program.Transparency
import ScriptStack.Proofs.Stack.Coincidence
import ScriptStack.Proofs.Stack.Notation
import ScriptStack.Proofs.Stack.Readable
import ScriptStack.Proofs.Value.Lookup
import ScriptStack.Proofs.Value.Remembering
import ScriptStack.Text.Lines
import ScriptStack.Value.Order
import ScriptStack.Vocabulary
