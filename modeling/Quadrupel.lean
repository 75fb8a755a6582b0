import Quadrupel.RealFrame
import Quadrupel.Protocol
import Quadrupel.Ramp
import Quadrupel.Panic
import Quadrupel.Thrust
import Quadrupel.LinkLoss
import Quadrupel.Requests
import Quadrupel.Joint
import Quadrupel.Agreement
import Quadrupel.Interlock
import Quadrupel.PanicKept
import Quadrupel.Emergency
import Quadrupel.Terminate
import Quadrupel.ParserMemory
import Quadrupel.PcTerminal
import Quadrupel.Calibration
import Quadrupel.Burst
import Quadrupel.RawFilter
import Quadrupel.MotorRange
import Quadrupel.Sticks
import Quadrupel.Trim
import Quadrupel.Uart
import Quadrupel.Timers
import Quadrupel.Offsets
import Quadrupel.SendBuffer
import Quadrupel.BytesRead
import Quadrupel.InForce
import Quadrupel.SpiBuffers
import Quadrupel.DataLogger
import Quadrupel.WireFormat
import Quadrupel.Deadlines
import Quadrupel.Baro
import Quadrupel.Resend
import Quadrupel.Shutdown
import Quadrupel.Wire
import Quadrupel.Battery
import Quadrupel.RxRace
import Quadrupel.FlashMemory
import Quadrupel.Pulse
import Quadrupel.PacketFifo
import Quadrupel.ImuFifo
import Quadrupel.Silence
import Quadrupel.DmpMemory
import Quadrupel.Commands
