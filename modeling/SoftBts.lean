import SoftBts.Lib.Machine
import SoftBts.Lib.Octets
import SoftBts.Lib.LastWrite
import SoftBts.Lib.Elements
import SoftBts.Lib.Arrays
import SoftBts.Lib.IntrusiveList
import SoftBts.Lib.BitFields
import SoftBts.Consts
import SoftBts.State
import SoftBts.Builders
import SoftBts.Encoding
import SoftBts.AttrWalk
import SoftBts.AttrLoop
import SoftBts.OmlMsg
import SoftBts.ReceiveMsg
import SoftBts.OmlSpec
import SoftBts.Run
import SoftBts.ObjectFrame
import SoftBts.Acknowledgement
import SoftBts.SwActivation
import SoftBts.StateHistory
import SoftBts.Reports
import SoftBts.LegalStates
import SoftBts.ReportTruth
import SoftBts.ChannelStart
import SoftBts.SharedBuffer
import SoftBts.Receive
import SoftBts.BufferBounds
import SoftBts.OwnOctets
import SoftBts.Leftovers
import SoftBts.LinkSeparation
import SoftBts.AttrGrammar
import SoftBts.AttrBounds
import SoftBts.Discriminator
import SoftBts.KillBackground
import SoftBts.FrameSync
import SoftBts.ReceiveResults
import SoftBts.TrxTable
import SoftBts.FailedAccept
import SoftBts.SlotRelease
import SoftBts.RslRecords
import SoftBts.RestOctets
import SoftBts.RslReports
import SoftBts.SysInfo
import SoftBts.ElementBounds
import SoftBts.SelectLoop
import SoftBts.Daemon
import SoftBts.DaemonTurn
import SoftBts.EventLoop
import SoftBts.Timers
import SoftBts.OutputBuffer
import SoftBts.LineRun
import SoftBts.TelnetInput
import SoftBts.CmdInit
import SoftBts.CommandArguments
import SoftBts.ConfigLock
import SoftBts.Passwords
