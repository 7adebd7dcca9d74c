import SecNet.Exn
import SecNet.Lib.Bytes
import SecNet.Lib.IPv4

/-!
# IPv4 headers

`packet_endpoints` of `packet_manager.py`: the source and the destination of an
IPv4 packet, as far as its header is there.
-/

namespace SecNet

/-- `IPv4Address(b)`, of four bytes. -/
def IPv4Address.ofBytes (b : Bytes) : IPv4Address where
  ip := unpackBE (b.take 4)
  ip_lt := by
    have hlt := unpackBE_lt (b.take 4)
    have hlen : (b.take 4).length ≤ 4 := List.length_take_le _ _
    calc unpackBE (b.take 4) < 256 ^ (b.take 4).length := hlt
      _ ≤ 256 ^ 4 := Nat.pow_le_pow_right (by norm_num) hlen
      _ = 2 ^ 32 := by norm_num

/-- `packet_endpoints`. -/
def packetEndpoints (packet : Bytes) : Except Exn (IPv4Address × IPv4Address) :=
  if packet.length < 20 ∨ packet.headD 0 >>> 4 ≠ 4 then
    .error (.valueError "only complete IPv4 packets are supported")
  else
    let ihl := (packet.headD 0 &&& 0xF).toNat * 4
    if ihl < 20 ∨ packet.length < ihl then .error (.valueError "invalid IPv4 header")
    else .ok (.ofBytes (packet.drop 12), .ofBytes (packet.drop 16))

end SecNet
