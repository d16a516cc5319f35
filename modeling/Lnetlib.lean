import Lnetlib.Lib.Run
import Lnetlib.Lib.Bytes
import Lnetlib.Lib.Framing
import Lnetlib.Lib.Threads
import Lnetlib.Lsignal.Model
import Lnetlib.Lsignal.Proofs.HeapProofs
import Lnetlib.Lsignal.SlotLife
import Lnetlib.Lsignal.Proofs.SlotLifeProofs
import Lnetlib.Lsignal.Subscription
import Lnetlib.Lsignal.Proofs.SubscriptionProofs
import Lnetlib.Lsignal.Links
import Lnetlib.Lsignal.Proofs.LinksProofs
import Lnetlib.Lsignal.Emission
import Lnetlib.Lsignal.Proofs.EmissionProofs
import Lnetlib.Lsignal.Forwarding
import Lnetlib.Lsignal.Proofs.ForwardingProofs
import Lnetlib.Lsignal.Removal
import Lnetlib.Lsignal.Proofs.RemovalProofs
import Lnetlib.Lsignal.Copying
import Lnetlib.Lsignal.Proofs.CopyingProofs
import Lnetlib.Lsignal.LockDiscipline
import Lnetlib.Lsignal.Proofs.LockDisciplineProofs
import Lnetlib.Stream.Types
import Lnetlib.Stream.Ostream
import Lnetlib.Stream.Istream
import Lnetlib.Stream.Codec
import Lnetlib.Stream.Proofs.CodecProofs
import Lnetlib.Stream.Strings
import Lnetlib.Stream.Proofs.StringsProofs
import Lnetlib.Stream.Truncated
import Lnetlib.Stream.Proofs.TruncatedProofs
import Lnetlib.Connection.Model
import Lnetlib.Connection.Sending
import Lnetlib.Connection.Proofs.SendingProofs
import Lnetlib.Connection.Delivery
import Lnetlib.Connection.Proofs.DeliveryStepsProofs
import Lnetlib.Connection.Proofs.DeliveryStreamsProofs
import Lnetlib.Connection.Proofs.DeliveryWireProofs
import Lnetlib.Connection.Proofs.DeliveryProofs
import Lnetlib.Connection.Correlation
import Lnetlib.Connection.Proofs.CorrelationProofs
import Lnetlib.Connection.Handlers
import Lnetlib.Connection.Lifecycle
import Lnetlib.Connection.Proofs.LifecycleProofs
import Lnetlib.Connection.Reading
import Lnetlib.Connection.Proofs.ReadLoopProofs
import Lnetlib.Connection.Proofs.ReadingProofs
import Lnetlib.Connection.Proofs.SerialProofs
import Lnetlib.Connection.Callbacks
import Lnetlib.Connection.Proofs.CallbacksProofs
import Lnetlib.Connection.Decoding
import Lnetlib.Connection.Proofs.DecodingProofs
import Lnetlib.Server.Model
import Lnetlib.Server.Accept
import Lnetlib.Server.Proofs.AcceptProofs
import Lnetlib.Server.Serving
import Lnetlib.Server.Proofs.ServingProofs
import Lnetlib.Server.Registry
import Lnetlib.Server.Proofs.RegistryProofs
import Lnetlib.Server.Arrival
import Lnetlib.Server.Proofs.ArrivalProofs
import Lnetlib.Server.Ownership
import Lnetlib.Server.Proofs.CallStackProofs
import Lnetlib.Server.Proofs.OwnershipProofs
import Lnetlib.Server.Reentrancy
import Lnetlib.Server.Proofs.ReentrancyProofs
import Lnetlib.Client.Model
import Lnetlib.Client.Connecting
import Lnetlib.Client.Proofs.ConnectingProofs
import Lnetlib.Client.EventOrder
import Lnetlib.Client.Proofs.LinkProofs
import Lnetlib.Client.Proofs.EventOrderProofs
import Lnetlib.Encryption.Settings
import Lnetlib.Encryption.Proofs.SettingsProofs
import Lnetlib.Lib.Locks
import Lnetlib.Server.LockOrder
import Lnetlib.Server.Proofs.LockOrderProofs
import Lnetlib.Connection.Progress
import Lnetlib.Connection.Proofs.ProgressProofs
import Lnetlib.Connection.Transfer
import Lnetlib.Connection.Proofs.TransferProofs
import Lnetlib.Connection.Duplex
import Lnetlib.Connection.Proofs.DuplexProofs
import Lnetlib.Connection.Proofs.RequesterProofs
import Lnetlib.Example.Programs
import Lnetlib.Example.Proofs.ScreenProofs
import Lnetlib.Example.Proofs.ProgramsProofs
import Lnetlib.Example.Proofs.RepliesProofs
