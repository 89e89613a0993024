import Hdc.Uart.Slots
import Hdc.Daemon.AuthRuns
import Hdc.Host.PermitRuns
import Hdc.Transfer.Blacklist
import Hdc.Channel.Reads
import Hdc.Usb.Accounting
import Hdc.Usb.Arrival
import Hdc.Transfer.Completion
import Hdc.Tar.Containment
import Hdc.Tar.Damage
import Hdc.Session.Control
import Hdc.Session.TaskCount
import Hdc.Session.Sessions
import Hdc.Forward.ContextMap
import Hdc.Daemon.Jdwp
import Hdc.Host.ReceiveTarget
import Hdc.Tlv
import Hdc.TextTlv
import Hdc.Daemon.Notification
import Hdc.Credential.Report
import Hdc.Host.KeyFiles
import Hdc.Sudo.Environment
import Hdc.Rust.LocalPath
import Hdc.Rust.Ordering
import Hdc.Daemon.Commands
import Hdc.Rust.Contexts
import Hdc.Session.Sealing
import Hdc.Daemon.KnownHosts
import Hdc.Forward.Frames
import Hdc.Daemon.Shell
import Hdc.Daemon.Trackers
import Hdc.Session.ChannelClose
import Hdc.Rust.DiedSession
import Hdc.Rust.Rules
import Hdc.Uart.Damage
import Hdc.Uart.Session
import Hdc.Daemon.Cleanup
import Hdc.Host.ConnectKey
import Hdc.Rust.Jdwp
import Hdc.ArgumentBlock
