import CsBoot.Sys.HeapShape
import CsBoot.Sys.VctlRun
import CsBoot.Sys.VctlSafe
import CsBoot.Nand.EccSpec
import CsBoot.Nand.RoundTrip
import CsBoot.Boot.SlMain
import CsBoot.Ui.Capacity
import CsBoot.Net.TftpComplete
import CsBoot.Net.Conserve
import CsBoot.Net.TftpPut
import CsBoot.Ui.ImageHeader
import CsBoot.Ide.Partition
import CsBoot.Ide.Pipeline
import CsBoot.Ide.Aoe
import CsBoot.Raid.Matching
import CsBoot.Raid.Md
import CsBoot.Net.TcpSequence
import CsBoot.Net.NetPool
import CsBoot.Nand.ReadEnds
import CsBoot.Ui.FailedUpgrade
import CsBoot.Ide.OpenFiles
import CsBoot.Ide.PrdTable
import CsBoot.Ide.RwRange
import CsBoot.Ide.AoeStatus
import CsBoot.Raid.MarkFirst
import CsBoot.Net.TcpClose
import CsBoot.Net.TcpOptions
import CsBoot.Net.UdpOutput
import CsBoot.Net.IpAccept
import CsBoot.Net.UdpLife
import CsBoot.Net.TftpWrap
import CsBoot.Lib.Crc
import CsBoot.Xmodem.Packet
import CsBoot.Xmodem.Read
import CsBoot.Xmodem.Session
import CsBoot.Xmodem.Delivers
import CsBoot.Lib.Slots
import CsBoot.Fis.Commands
import CsBoot.Fis.Table
import CsBoot.Fis.Steps
import CsBoot.Fis.Map
import CsBoot.Lib.OnesSum
import CsBoot.Net.Checksum
import CsBoot.Lib.CrcReflected
import CsBoot.Ui.Crc16
import CsBoot.Ui.Burst
import CsBoot.Bsp.Uart
import CsBoot.Sys.Str2ip
import CsBoot.Ui.Gets
import CsBoot.Lib.Attempts
import CsBoot.Bsp.Flash
import CsBoot.Net.Arp
import CsBoot.Lib.CString
import CsBoot.Ui.Cli
import CsBoot.Ui.CliSafe
import CsBoot.Sys.Strtoul
import CsBoot.Lib.Calls
import CsBoot.Ide.PathLookup
import CsBoot.Ide.PathFormat
import CsBoot.Ide.OpenTrace
import CsBoot.Ide.Mount
import CsBoot.Ide.DirBlock
import CsBoot.Ide.Inodes
import CsBoot.Ide.BlockMap
import CsBoot.Lib.CFormat
import CsBoot.Sys.Printf
import CsBoot.Sys.PrintfSpec
import CsBoot.Sys.PrintfAsC
import CsBoot.Sys.Settings
import CsBoot.Sys.SettingsSpec
import CsBoot.Sys.SettingsText
import CsBoot.Sys.SettingsStore
import CsBoot.Lib.RingWindow
import CsBoot.Bsp.GmacRx
import CsBoot.Bsp.GmacRxSpec
import CsBoot.Bsp.GmacTx
import CsBoot.Bsp.GmacTxSpec
import CsBoot.Net.Exchange
import CsBoot.Net.Ping
import CsBoot.Net.UdpStream
import CsBoot.Raid.Sessions
import CsBoot.Lib.MsbBits
import CsBoot.Bsp.Mii
import CsBoot.Bsp.MiiSpec
import CsBoot.Ui.Console
import CsBoot.Ui.ConsoleSpec
import CsBoot.Fis.Boot
import CsBoot.Fis.BootRun
