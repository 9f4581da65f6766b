import SubutaiTray.Library.Runs
import SubutaiTray.Library.Counting
import SubutaiTray.Library.LeastGap
import SubutaiTray.Library.Locking
import SubutaiTray.Library.RemoveIf
import SubutaiTray.Library.Erasure
import SubutaiTray.Library.Splitting
import SubutaiTray.Library.SuffixMatching
import SubutaiTray.Library.Sweeping
import SubutaiTray.Library.Feedback
import SubutaiTray.Library.Tables
import SubutaiTray.Library.LineStream
import SubutaiTray.Library.Words
import SubutaiTray.Library.CyclicScan
import SubutaiTray.Library.JoinedOrder
import SubutaiTray.Library.PaddedOrder
import SubutaiTray.Library.Menus
import SubutaiTray.Library.Footprints
import SubutaiTray.Qt.Text
import SubutaiTray.Qt.Numbers
import SubutaiTray.Qt.PlaceMarkers
import SubutaiTray.Qt.StdMap
import SubutaiTray.Qt.Variant
import SubutaiTray.Process.SystemCall
import SubutaiTray.Libssh.ReadLoop
import SubutaiTray.Ssdp.Automaton
import SubutaiTray.Ssdp.Trie
import SubutaiTray.Ssdp.FailureLinks
import SubutaiTray.Ssdp.AhoCorasick
import SubutaiTray.Ssdp.Datagram
import SubutaiTray.Ssdp.HeaderLines
import SubutaiTray.Ssdp.Parsing
import SubutaiTray.Ssdp.Reads
import SubutaiTray.Ssdp.ControllerRuns
import SubutaiTray.Ssdp.ResourceHosts
import SubutaiTray.Settings.Password
import SubutaiTray.Settings.PasswordRuns
import SubutaiTray.Settings.Manager
import SubutaiTray.Settings.Loading
import SubutaiTray.Settings.Persistence
import SubutaiTray.Settings.SettingCalls
import SubutaiTray.Notification.Logger
import SubutaiTray.Notification.LogFile
import SubutaiTray.Notification.LevelLookups
import SubutaiTray.Notification.Unions
import SubutaiTray.Hub.Controller
import SubutaiTray.Hub.EnvironmentCache
import SubutaiTray.Hub.EnvironmentMenu
import SubutaiTray.Hub.EnvironmentEntries
import SubutaiTray.Hub.HealthAnnouncements
import SubutaiTray.Hub.EnvironmentDialog
import SubutaiTray.Hub.RefreshLoop
import SubutaiTray.Hub.RetryBudget
import SubutaiTray.Hub.Logout
import SubutaiTray.Hub.SshKeys
import SubutaiTray.Hub.SshKeyIndex
import SubutaiTray.Hub.SshKeyRescan
import SubutaiTray.Hub.SshKeyAddressing
import SubutaiTray.Hub.SshKeyUploads
import SubutaiTray.Hub.ContainerVectors
import SubutaiTray.P2P.Interfaces
import SubutaiTray.P2P.Connector
import SubutaiTray.P2P.Swarms
import SubutaiTray.Peer.Logs
import SubutaiTray.Peer.Destroy
import SubutaiTray.Peer.Window
import SubutaiTray.Peer.Effects
import SubutaiTray.Peer.Buttons
import SubutaiTray.Peer.UpdateFlag
import SubutaiTray.Peer.Controller
import SubutaiTray.Peer.Rounds
import SubutaiTray.Peer.CalmRounds
import SubutaiTray.Peer.Activities
import SubutaiTray.Peer.EnvironmentRows
import SubutaiTray.Peer.ButtonTable
import SubutaiTray.Peer.PeerTables
import SubutaiTray.Peer.PeerNews
import SubutaiTray.Peer.ActiveDialogs
import SubutaiTray.Peer.PeerMenus
import SubutaiTray.Peer.ConsolePorts
import SubutaiTray.Peer.ConfigFile
import SubutaiTray.Peer.KeyValueScanners
import SubutaiTray.Peer.BridgedInterfaces
import SubutaiTray.Peer.ConfigEdits
import SubutaiTray.Peer.StatusLine
import SubutaiTray.Peer.GlobalStatus
import SubutaiTray.Peer.RegisterDialog
import SubutaiTray.Peer.PeerNames
import SubutaiTray.Peer.UidFingerprint
import SubutaiTray.P2P.LocalContainers
import SubutaiTray.Hub.ContainerLaunch
import SubutaiTray.Transfer.FileLines
import SubutaiTray.Transfer.RemoteListing
import SubutaiTray.Transfer.DirectoryLines
import SubutaiTray.Transfer.RemoteNavigation
import SubutaiTray.Transfer.TransferQueue
import SubutaiTray.Transfer.ClearFiles
import SubutaiTray.Updater.Operations
import SubutaiTray.Updater.Exits
import SubutaiTray.Updater.InProgress
import SubutaiTray.Updater.P2PStatus
import SubutaiTray.Updater.Executable
import SubutaiTray.Updater.Download
import SubutaiTray.Updater.BoxVersions
import SubutaiTray.Updater.PluginVersions
import SubutaiTray.Updater.UpdateTimers
import SubutaiTray.WebSocket.Dispatch
import SubutaiTray.WebSocket.Replies
import SubutaiTray.WebSocket.LaunchReplies
import SubutaiTray.Installer.Functions
import SubutaiTray.Installer.LockRelease
import SubutaiTray.Installer.VersionCompare
import SubutaiTray.Settings.SettingsDialog
import SubutaiTray.Settings.DialogReopening
import SubutaiTray.Settings.LoginDialog
import SubutaiTray.Notification.IgnoredMessages
import SubutaiTray.Process.Handler
import SubutaiTray.Browser.FirefoxProfiles
