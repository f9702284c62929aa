import LLNStack.Lib.Run
import LLNStack.Sync.Interrupt
import LLNStack.Udp.Ports
import LLNStack.Udp.Binding
import LLNStack.Udp.Session
import LLNStack.Sock.Leak
import LLNStack.Arp.Fresh
import LLNStack.Arp.Lifetime
import LLNStack.Arp.Agree
import LLNStack.Arp.Handshake
import LLNStack.Udp.Checksum
import LLNStack.Ip.Prefix
import LLNStack.Ip.Bounds
import LLNStack.Host.Delivery
import LLNStack.Host.Send
import LLNStack.Host.Echo
import LLNStack.Host.Drain
import LLNStack.Host.Sizes
import LLNStack.Queue
import LLNStack.Sock.Address
import LLNStack.Arp.Staleness
import LLNStack.Udp.Wakeup
import LLNStack.Intr.Stale
import LLNStack.Host.Config
import LLNStack.Host.Traffic
import LLNStack.App.UdpApp
import LLNStack.Host.Network
import LLNStack.Host.Addressing
import LLNStack.Host.Recovery
import LLNStack.Udp.Memory
import LLNStack.Net.Race
