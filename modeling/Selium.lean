import Selium.Connector.Pipeline
import Selium.ControlPlane.Resolve
import Selium.Discovery.Feed
import Selium.Discovery.Noninterference
import Selium.Discovery.Revocation
import Selium.Guest.Join
import Selium.Guest.Timer
import Selium.Guest.UdpReady
import Selium.Guest.Wakes
import Selium.Identity.Restart
import Selium.Kernel.Ids
import Selium.Kernel.Poller
import Selium.Kernel.Quota
import Selium.Runtime.Attenuation
import Selium.Runtime.Bootstrap
import Selium.Runtime.Cancellation
import Selium.Runtime.Confinement
import Selium.Runtime.Delegation
import Selium.Runtime.Descendants
import Selium.Runtime.DiscoveryIdentity
import Selium.Runtime.GenerationWaits
import Selium.Runtime.Operations
import Selium.Runtime.ProcessQuota
import Selium.Runtime.Reclamation
import Selium.Runtime.StoppedGuest
import Selium.Runtime.StorageIsolation
import Selium.Runtime.Wake
import Selium.Shm.ByteAccess
import Selium.Shm.Fifo
import Selium.Shm.PeerClose
import Selium.Shm.Slots
import Selium.Shm.TableVersions
import Selium.Shm.WriterProgress
import Selium.Wire.Stream
import Selium.Wire.Waiting
