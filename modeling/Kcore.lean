import Kcore.Replication.Retry
import Kcore.Replication.Confluence
import Kcore.Replication.Convergence
import Kcore.Ha.SingleWriter
import Kcore.Ha.LeaseStore
import Kcore.Ha.Unfence
import Kcore.Node.Snapshot
import Kcore.Node.Evacuate
import Kcore.Migration.Cancel
import Kcore.Migration.Orphan
import Kcore.Disko.Scope
import Kcore.DiskVerify.Phase
import Kcore.DiskVerify.Wipe
import Kcore.DiskVerify.Device
import Kcore.Export.Instant
import Kcore.Nixgen.Multiline
import Kcore.Nixgen.Replica
import Kcore.Nixgen.RuntimeName
import Kcore.Gpu.Scan
import Kcore.Provisioning.Kea
import Kcore.Pki.Crl
import Kcore.Pki.Renewal
import Kcore.Pki.InUse
import Kcore.Pki.Validity
import Kcore.Pki.Rotate
import Kcore.WebAuth.Replicated
import Kcore.WebAuth.SignIn
import Kcore.Ha.Admission
import Kcore.Ha.RestartOrder
import Kcore.Agent.Isolation
import Kcore.Replication.Compensation
import Kcore.Net.NatReserve
import Kcore.Kubernetes.PodSubnet
import Kcore.Gpu.Binding
import Kcore.Ingress.Controller
import Kcore.Pki.Serial
import Kcore.WebAuth.Guess
import Kcore.WebAuth.TokenCap
import Kcore.Ceph.Drain
import Kcore.Ceph.MonMap
import Kcore.Slurm.Conf
import Kcore.Update.HostFlake
import Kcore.Update.Legacy
import Kcore.Provisioning.RouterOs
import Kcore.Provisioning.Dns
import Kcore.Snapshot.Clock
import Kcore.Export.Normal
import Kcore.Export.Lease
import Kcore.Lvm.MountUnit
import Kcore.Replication.Reservation
import Kcore.Slurm.Membership
import Kcore.Scheduler.Place
