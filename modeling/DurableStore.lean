import DurableStore.Client
import DurableStore.Lock
import DurableStore.Main
import DurableStore.Proofs.Wire.Offsets
import DurableStore.Proofs.Number.Numerals
import DurableStore.Proofs.Wire.RoundTrip
import DurableStore.Proofs.Wire.Sequences
import DurableStore.Proofs.Wire.Receiving
import DurableStore.Proofs.Log.Replaying
import DurableStore.Proofs.Log.Lifecycle
import DurableStore.Proofs.Log.Recovery
import DurableStore.Proofs.Log.Reopening
import DurableStore.Proofs.Log.Sessions
import DurableStore.Proofs.Server.Histories
import DurableStore.Proofs.Server.Logging
import DurableStore.Proofs.Server.Accounts
import DurableStore.Proofs.Server.Undisturbed
import DurableStore.Proofs.Server.Faults
import DurableStore.Proofs.Engine
import DurableStore.Proofs.Server.Durability
import DurableStore.Proofs.Text.Lines
import DurableStore.Proofs.Text.Validity
import DurableStore.Proofs.Server.Replies
import DurableStore.Proofs.Server.Arrivals
import DurableStore.Proofs.Wire.ReadBack
import DurableStore.Proofs.Wire.HostValues
import DurableStore.Proofs.Wire.NormalForm
import DurableStore.Proofs.Wire.Decision
import DurableStore.Proofs.Wire.Streaming
import DurableStore.Proofs.Wire.InPlace
import DurableStore.Proofs.Wire.Failures
import DurableStore.Proofs.Wire.Waiting
import DurableStore.Proofs.Wire.Extent
import DurableStore.Proofs.Lock
import DurableStore.Proofs.Keyspace.Effects
import DurableStore.Proofs.Keyspace.Recall
import DurableStore.Proofs.Keyspace.Writes
import DurableStore.Proofs.Keyspace.Removal
import DurableStore.Proofs.Log.Repetition
import DurableStore.Proofs.Server.Isolation
import DurableStore.Proofs.Server.Traffic
import DurableStore.Proofs.Server.Independence
import DurableStore.Proofs.Client.Network
import DurableStore.Proofs.Client.Rounds
import DurableStore.Proofs.Client.OneMap
import DurableStore.Proofs.Commands
