import LLNStack.Util

/-!
# LLNStack.Ip.Addr

The types of `ip2.h` that every layer above the link uses. Addresses and ports are the native
values of their four and two bytes in network order, as the source keeps them.
-/

namespace LLNStack

abbrev IPAddress := BitVec 32

def ipAddrAny : IPAddress := 0x00000000#32
def ipAddrBroadcast : IPAddress := 0xffffffff#32

structure IpEndpoint where
  address : IPAddress
  port : BitVec 16
  deriving DecidableEq, Repr

/-! ## Sizes and protocol numbers -/

def ipv4 : BitVec 8 := 4
def minIpHeaderSize : Nat := 20
def maxIpPacketSize : Nat := 65535
def maxIpPayloadSize : Nat := maxIpPacketSize - minIpHeaderSize

def icmpProtocol : BitVec 8 := 0x01
def udpProtocol : BitVec 8 := 0x11

end LLNStack
