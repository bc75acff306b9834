import QuartzFire.Foundation.TransitionSystem
import QuartzFire.Foundation.Fallible
import QuartzFire.Foundation.Gathering
import QuartzFire.Foundation.Rearrangement
import QuartzFire.Foundation.Text
import QuartzFire.Foundation.Table
import QuartzFire.Foundation.InternetChecksum
import QuartzFire.Foundation.BoundedRead
import QuartzFire.Foundation.Tally
import QuartzFire.Foundation.Lines
import QuartzFire.Foundation.Scan
import QuartzFire.Foundation.UrlPath
import QuartzFire.Foundation.JsNumber
import QuartzFire.Foundation.ConfigTree
import QuartzFire.Foundation.ConfigRebuild
import QuartzFire.Foundation.ConfigCheck
import QuartzFire.Foundation.ConfigEdit
import QuartzFire.Foundation.ConfigFootprint
import QuartzFire.Foundation.ConfigRead
import QuartzFire.Guard.CommitConfirm
import QuartzFire.Guard.ConfirmSafety
import QuartzFire.Guard.RollbackExactness
import QuartzFire.Guard.Resolution
import QuartzFire.Guard.Release
import QuartzFire.Guard.Proxy
import QuartzFire.Guard.Banner
import QuartzFire.AppControl.CtMark
import QuartzFire.AppControl.FlowTable
import QuartzFire.AppControl.Worker
import QuartzFire.AppControl.Nftables
import QuartzFire.AppControl.VerdictPath
import QuartzFire.AppControl.Policy
import QuartzFire.AppControl.Reload
import QuartzFire.AppControl.PolicyStore
import QuartzFire.AppControl.PolicyVerdicts
import QuartzFire.AppControl.PolicyCompile
import QuartzFire.AppControl.Packets
import QuartzFire.AppControl.Reset
import QuartzFire.Devices.Accountant
import QuartzFire.Devices.SharedAccounting
import QuartzFire.Devices.Usage
import QuartzFire.Agent.Token
import QuartzFire.Agent.BrowserToken
import QuartzFire.Agent.Enrollment
import QuartzFire.Agent.Material
import QuartzFire.Agent.Tokens
import QuartzFire.Nft.Matching
import QuartzFire.Nft.Ruleset
import QuartzFire.Nft.Address
import QuartzFire.AppControl.Nftgen
import QuartzFire.AppControl.RenderedTable
import QuartzFire.Replication.RuleMatch
import QuartzFire.Replication.Criteria
import QuartzFire.Replication.Exactness
import QuartzFire.Replication.Geolocation
import QuartzFire.Replication.ZonePairs
import QuartzFire.Routing.Policy
import QuartzFire.Routing.PolicyEdit
import QuartzFire.Routing.PolicySave
import QuartzFire.Routing.Static
import QuartzFire.Routing.StaticRead
import QuartzFire.Routing.StaticEdit
import QuartzFire.Routing.StaticRows
import QuartzFire.Vpn.Openvpn
import QuartzFire.Vpn.OpenvpnModes
import QuartzFire.Vpn.OpenvpnSave
import QuartzFire.Replication.Snapshot
import QuartzFire.Geolocation.Render
import QuartzFire.Geolocation.Closure
import QuartzFire.Geolocation.Enforcement
import QuartzFire.Inspection.Model
import QuartzFire.Inspection.Render
import QuartzFire.Inspection.Steering
import QuartzFire.Inspection.Resolve
import QuartzFire.Inspection.Resync
import QuartzFire.ContentFiltering.Model
import QuartzFire.ContentFiltering.Consistency
import QuartzFire.ContentFiltering.Dependency
import QuartzFire.ContentFiltering.AccessLog
import QuartzFire.ContentFiltering.LogFeed
import QuartzFire.Firewall.Model
import QuartzFire.Firewall.Parse
import QuartzFire.Firewall.Placement
import QuartzFire.Firewall.Schema
import QuartzFire.Firewall.Reorder
import QuartzFire.Firewall.Services
import QuartzFire.Firewall.Endpoints
import QuartzFire.Firewall.DiffRule
import QuartzFire.Firewall.Cascade
import QuartzFire.Firewall.SaveUnchanged
import QuartzFire.Firewall.Footprint
import QuartzFire.Firewall.RuleServices
import QuartzFire.Firewall.GeoAttachments
import QuartzFire.Firewall.AcSelection
import QuartzFire.Firewall.Objects
import QuartzFire.Firewall.Markers
import QuartzFire.Firewall.Console
import QuartzFire.Firewall.Pieces
import QuartzFire.Firewall.DefaultAction
import QuartzFire.Firewall.Effects
import QuartzFire.Firewall.Numbers
import QuartzFire.Firewall.PairLifecycle
import QuartzFire.Ips.Settings
import QuartzFire.Ips.Store
import QuartzFire.Ips.Ruleset
import QuartzFire.Ips.Rewrite
import QuartzFire.Ips.ApplyRun
import QuartzFire.Monitoring.LogEntry
import QuartzFire.Monitoring.Attribution
import QuartzFire.Monitoring.Renumbering
import QuartzFire.Monitoring.FlowList
import QuartzFire.Monitoring.FirewallLog
import QuartzFire.Image.Staging
import QuartzFire.Image.Install
import QuartzFire.Foundation.ConfigField
import QuartzFire.Nat44.Edit
import QuartzFire.Nat44.Hidden
import QuartzFire.Nat44.Mappings
import QuartzFire.Guard.BootSave
import QuartzFire.Monitoring.RuleIdentity
import QuartzFire.Foundation.UrlDirectory
import QuartzFire.Agent.LocalApi
import QuartzFire.Foundation.DirectoryTree
import QuartzFire.Foundation.Blanks
import QuartzFire.Foundation.FirstMatch
import QuartzFire.Foundation.TextLines
import QuartzFire.ContentFiltering.Swap
import QuartzFire.ContentFiltering.Overrides
import QuartzFire.Monitoring.FixedTable
import QuartzFire.ContentFiltering.TestUrl
import QuartzFire.Foundation.LastKnown
import QuartzFire.Devices.Sightings
import QuartzFire.Devices.Reuse
import QuartzFire.Firewall.ZoneUsage
import QuartzFire.Foundation.ConfigRecord
import QuartzFire.Foundation.Register
import QuartzFire.Firewall.ObjectReads
import QuartzFire.Firewall.ObjectSaves
import QuartzFire.Firewall.ZoneSaves
import QuartzFire.Devices.Online
import QuartzFire.Foundation.FirstGreatest
import QuartzFire.Devices.Leases
import QuartzFire.Foundation.ConfigLeaf
import QuartzFire.Guard.Lockout
import QuartzFire.Agent.Gateway
import QuartzFire.Foundation.Pairing
import QuartzFire.Guard.ConfigText
import QuartzFire.Guard.BootTree
import QuartzFire.Foundation.Nesting
import QuartzFire.Guard.BlockSpan
import QuartzFire.Guard.WebuiAccess
import QuartzFire.Foundation.Words
import QuartzFire.Devices.ConntrackLine
import QuartzFire.Devices.ConntrackEntry
import QuartzFire.Devices.ConntrackRead
import QuartzFire.Devices.FlowKeys
import QuartzFire.Foundation.BitGroups
import QuartzFire.Agent.DeviceId
import QuartzFire.Replication.GroupMembers
import QuartzFire.AppControl.MarkCodec
import QuartzFire.Devices.MarkLayout
import QuartzFire.Foundation.Lru
import QuartzFire.AppControl.FlowTableRuns
import QuartzFire.Firewall.Flattening
import QuartzFire.Foundation.Calendar
import QuartzFire.Monitoring.Timestamps
import QuartzFire.AppControl.ShownVerdict
import QuartzFire.Foundation.IntervalCover
import QuartzFire.Geolocation.Collapse
import QuartzFire.Geolocation.MinimalCover
import QuartzFire.Foundation.ConfigRegister
import QuartzFire.Services.Model
import QuartzFire.Services.Reads
import QuartzFire.Services.PolicySaves
import QuartzFire.Services.ActionSaves
import QuartzFire.Services.InspectionSaves
import QuartzFire.Services.Edits
import QuartzFire.Monitoring.StampOrder
