import Hermes.L2Mem.Dma
import Hermes.L2Mem.Memops
import Hermes.L2Mem.VmNoReplace
import Hermes.L2Mem.VmFork
import Hermes.L3Net.Tcp.SackRuns
import Hermes.L3Net.Tcp.States
import Hermes.Bugs.TcpStream
import Hermes.L1Hw.Shootdown
import Hermes.L2Mem.VmMap
import Hermes.L2Mem.AllocRun
import Hermes.L4Fs.Path
import Hermes.L4Fs.FatMount
import Hermes.L5Sched.TimedSleep
import Hermes.L5Sched.Poll
import Hermes.L4Fs.BcacheRuns
import Hermes.L4Fs.Fat.Links
import Hermes.L4Fs.Fat.Cache
import Hermes.L5Sched.Futex
import Hermes.L5Sched.Timeout
import Hermes.L6Io.Tty
import Hermes.L6Io.EpollNest
import Hermes.L3Net.Ipv4RoundTrip
import Hermes.Bugs.Ipv6Long
import Hermes.L5Sched.SignalReturn
import Hermes.L3Net.UdpConnect
import Hermes.L3Net.Connected
import Hermes.L3Net.Slaac
import Hermes.L3Net.Tcp.SendTimers
