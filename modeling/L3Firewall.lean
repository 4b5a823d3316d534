import L3Firewall.Admin.Report
import L3Firewall.Audit.Backups
import L3Firewall.Audit.Lines
import L3Firewall.Audit.Recovery
import L3Firewall.Capture.FileLimit
import L3Firewall.Conntrack.Sessions
import L3Firewall.Conntrack.SlidingCount
import L3Firewall.Conntrack.Spellings
import L3Firewall.Conntrack.TcpState
import L3Firewall.Foundation.Recover
import L3Firewall.Hotreload.Sources
import L3Firewall.L2filter.ArpTable
import L3Firewall.Opa.Extraction
import L3Firewall.Opa.Monotone
import L3Firewall.Opa.Reasons
import L3Firewall.Packet.Padding
import L3Firewall.Persist.Atomic
import L3Firewall.Pipeline.Alerts
import L3Firewall.Pipeline.AuditLog
import L3Firewall.Pipeline.BlockStats
import L3Firewall.Pipeline.Counters
import L3Firewall.Pipeline.Footprint
import L3Firewall.Pipeline.Lifetimes
import L3Firewall.Pipeline.Noninterference
import L3Firewall.Pipeline.PortScan
import L3Firewall.Pipeline.Resets
import L3Firewall.Pipeline.Restart
import L3Firewall.Pipeline.Tightening
import L3Firewall.Ratelimit.Bounds
import L3Firewall.Securepath.Consumers
import L3Firewall.Securepath.Resolution
import L3Firewall.Sync.Collapse
import L3Firewall.Sync.Register
import L3Firewall.Sync.ReloadRate
import L3Firewall.Sync.Revisions
import L3Firewall.Threatintel.Entries
import L3Firewall.Threatintel.Fetch
