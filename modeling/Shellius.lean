import Shellius.Org.Settings
import Shellius.Policy.References
import Shellius.Users.Escalation
import Shellius.Users.EffectiveScope
import Shellius.Users.Managers
import Shellius.Users.LastAdmin
import Shellius.Customers.DeleteRace
import Shellius.Directory.Valves
import Shellius.Directory.Grace
import Shellius.Jit.Names
import Shellius.Ca.Race
import Shellius.Ca.IssueBound
import Shellius.Auth.OneTimeCodes
import Shellius.Auth.InviteTokens
import Shellius.Auth.DeviceAuth
import Shellius.Auth.Lockout
import Shellius.Access.Lifecycle
import Shellius.Access.Duration
import Shellius.Access.BreakGlassRace.Sessions
import Shellius.Servers.AuthMode
import Shellius.Saml.Replay
import Shellius.Terminal.Output
import Shellius.Audit.Digest
import Shellius.Audit.Retention
import Shellius.Posture.Escalate
import Shellius.Sso.Unlink
import Shellius.Sso.LinkTokens
import Shellius.Keystore.NoLockout
import Shellius.Terminal.Revoked
import Shellius.Terminal.WsTickets
import Shellius.Rdp.Recordings
import Shellius.Auth.TokenPaths
import Shellius.Posture.Agreement
import Shellius.Chat.Presses
import Shellius.Sessions.Listed
import Shellius.Auth.TokenTwins
import Shellius.Updates.OneAtATime
import Shellius.Sso.Vouched
import Shellius.Cli.OneLogin
import Shellius.Collector.Cohort
import Shellius.Collector.Replay
import Shellius.Updates.Runnable
import Shellius.Keystore.Ownership
import Shellius.Import.Faithful
import Shellius.Keystore.Putty
import Shellius.Workspace.Bar
import Shellius.Workspace.Restored
import Shellius.Email.Tokens
import Shellius.Servers.GroupsOpen
import Shellius.Cli.OneServer
import Shellius.Cli.OwnList
import Shellius.Cli.ChosenHost
import Shellius.Org.HalfDone
import Shellius.Posture.ReportOrder
import Shellius.QuickConnect.SingleUse
import Shellius.QuickConnect.Targets
import Shellius.Net.Ssrf
import Shellius.Posture.Exported
import Shellius.Chat.Delivery
import Shellius.Import.Upload
import Shellius.Audit.Disabling
import Shellius.Posture.DigestPasses
import Shellius.Updates.Precedence
import Shellius.Cli.Listings
import Shellius.Cli.Migration
import Shellius.Cli.HostList
import Shellius.Workspace.RdpTabs
