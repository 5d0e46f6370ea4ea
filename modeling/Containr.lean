import Containr.Superseding.Requests
import Containr.Rollout.Previous
import Containr.Cron.Slots
import Containr.Api.Volumes
import Containr.Proxy.Versions
import Containr.Proxy.Downtime
import Containr.Worker.Settled
import Containr.Auth.Serializable
import Containr.Auth.TokenKinds
import Containr.Rollout.Order
import Containr.RequestLogs
import Containr.Api.LogStream
import Containr.Api.Settings
import Containr.Api.Unrecorded
import Containr.Api.Aliases
import Containr.Api.BuildOrPull
import Containr.Api.Restore
import Containr.Cron.Listing
import Containr.Proxy.AuthCache
import Containr.Proxy.Balancing
import Containr.Api.PushAuthority
import Containr.Proxy.Cookies
import Containr.Managed.StaysDeleted
import Containr.Managed.Users
import Containr.Api.ReplicaCounts
import Containr.Api.ReturnPaths
import Containr.Api.Domains
import Containr.Api.ToggleRetries
import Containr.Hostnames
import Containr.Registries
import Containr.Api.RepoComparison
import Containr.Api.MountPoints
import Containr.Api.ExtractedLinks
import Containr.Api.ContainerLogs
import Containr.Managed.MemoryLimits
import Containr.Managed.RecoveryConfig
import Containr.Managed.BaseBackups
import Containr.Worker.Sources
import Containr.Api.GateAgreement
import Containr.Api.LostUpdates
import Containr.Tls.Issuance
import Containr.Updates.Swap
import Containr.Api.ValidatedSaves
