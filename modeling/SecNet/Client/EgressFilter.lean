import SecNet.Server.Serve

/-!
# The egress filter of a client

`tun_to_net` drops the IPv4 packets whose source is not the VPN address of the
client, and `start_peer_packet_manager` those whose source is not the address
of the peer. The client compares texts, the one it prints and the one before
the slash of `tun_ip`; the server compares addresses. Both let pass what
`packet_endpoints` rejects, which the server does not route.

* `serve_reading`: what the server does with a packet, by its verdict;
* `egress_agrees`: what the client sends, the server does not hold for spoofed,
  and what the client drops, the server would.
-/

namespace SecNet

/-- What `tun_to_net` does with what it has read from the TUN. -/
inductive EgressVerdict
  /-- Nothing was read. -/
  | skips
  /-- `[CLIENT DROP] spoofed source`. -/
  | drops
  | sends
  deriving DecidableEq

/-- `tun_ip`, of `client.py`. -/
def clientTunIp (vpnIp : String) : String := vpnIp ++ "/24"

/-- `tun_ip.split("/")[0]`. -/
def vpnIpStr (tunIp : String) : String := .ofList ((tunIp.toList.splitOn '/').headD [])

/-- A turn of `tun_to_net`, up to `send_frame`. -/
def tunToNet (tunIp : String) (packet : Bytes) : Except Exn EgressVerdict :=
  if packet = [] then .ok .skips
  else match packetEndpoints packet with
    | .ok (source, _) => if source.text ≠ vpnIpStr tunIp then .ok .drops else .ok .sends
    -- `except ValueError: pass`
    | .error (.valueError _) => .ok .sends
    | .error e => .error e

/-- What `start_peer_packet_manager` finds a decrypted packet to be. -/
inductive PeerVerdict
  /-- `[server] dropped unsupported peer packet`. -/
  | unsupported
  /-- `[server] dropped spoofed source`. -/
  | spoofed (source : IPv4Address)
  /-- It goes on to `registry.get(destination)`. -/
  | routes (destination : IPv4Address)
  deriving DecidableEq

/-- The checks of `start_peer_packet_manager` on a decrypted packet. -/
def peerVerdict (vpnIp : IPv4Address) (packet : Bytes) : Except Exn PeerVerdict :=
  match packetEndpoints packet with
  | .ok (source, destination) =>
    if source ≠ vpnIp then .ok (.spoofed source) else .ok (.routes destination)
  -- `except ValueError as exc`
  | .error (.valueError _) => .ok .unsupported
  | .error e => .error e

/-- `packet_endpoints` raises nothing else. -/
theorem packetEndpoints_error {packet : Bytes} {e : Exn} (h : packetEndpoints packet = .error e) :
    ∃ text, e = .valueError text := by
  rw [packetEndpoints] at h
  split_ifs at h
  · exact ⟨_, (Except.error.inj h).symm⟩
  · simp only at h
    split_ifs at h
    exact ⟨_, (Except.error.inj h).symm⟩

variable {ι : Type} [DecidableEq ι]

/-- Where the thread of a peer is after a packet with a verdict: it goes on to
    route it, or on to the next packet. -/
def PeerVerdict.next (peer : PeerConnection ι) (packet : Bytes) : PeerVerdict → ServePc ι
  | .routes destination => .looking peer packet destination
  | _ => .reading peer

/-- The thread of a peer goes on from every packet it decrypts, as its verdict says. -/
theorem serve_reading (r : PeerRegistry ι) (i : ι) (peer : PeerConnection ι) (packet : Bytes) :
    ∃ verdict, peerVerdict peer.vpnIp packet = .ok verdict ∧
      serve r i (.reading peer) (.packet packet) =
        some (verdict.next peer packet, r, .arrives packet) := by
  rw [serve, peerVerdict]
  cases h : packetEndpoints packet with
  | error e =>
    obtain ⟨text, rfl⟩ := packetEndpoints_error h
    exact ⟨.unsupported, rfl, rfl⟩
  | ok endpoints =>
    obtain ⟨source, destination⟩ := endpoints
    dsimp only
    by_cases hsource : source = peer.vpnIp
    · exact ⟨.routes destination, by simp [hsource], by simp [hsource, PeerVerdict.next]⟩
    · exact ⟨.spoofed source, by simp [hsource], by simp [hsource, PeerVerdict.next]⟩

/-- The text of an address has no slash, so that the client finds it again
    before the length of the prefix. -/
theorem vpnIpStr_clientTunIp (a : IPv4Address) : vpnIpStr (clientTunIp a.text) = a.text := by
  have hslash : '/' ∉ a.text.toList := fun h => by
    have := IPv4Address.mem_text h
    simp at this
  have hsplit : (clientTunIp a.text).toList.splitOn '/' = [a.text.toList, ['2', '4']] := by
    rw [clientTunIp, String.toList_append]
    exact List.splitOn_append_cons_self_of_not_mem hslash ['2', '4']
  rw [vpnIpStr, hsplit, List.headD_cons, String.ofList_toList]

/-- What `tun_to_net` sends, the server routes, or drops as unsupported and goes on with the
    next packet; what it drops, the server would drop as spoofed. -/
theorem egress_agrees {reservedIp : String} {peer : PeerConnection ι}
    (hpeer : IPv4Address.ofText reservedIp = some peer.vpnIp) {packet : Bytes}
    (hpacket : packet ≠ []) (r : PeerRegistry ι) (i : ι) :
    tunToNet (clientTunIp reservedIp) packet = .ok .sends ∧
        ((∃ destination, peerVerdict peer.vpnIp packet = .ok (.routes destination) ∧
            serve r i (.reading peer) (.packet packet) =
              some (.looking peer packet destination, r, .arrives packet)) ∨
          peerVerdict peer.vpnIp packet = .ok .unsupported ∧
            serve r i (.reading peer) (.packet packet) =
              some (.reading peer, r, .arrives packet)) ∨
      tunToNet (clientTunIp reservedIp) packet = .ok .drops ∧
        (∃ source, peerVerdict peer.vpnIp packet = .ok (.spoofed source)) ∧
        serve r i (.reading peer) (.packet packet) =
          some (.reading peer, r, .arrives packet) := by
  obtain rfl := IPv4Address.text_of_ofText hpeer
  obtain ⟨verdict, hverdict, hserve⟩ := serve_reading r i peer packet
  rw [tunToNet, if_neg hpacket, vpnIpStr_clientTunIp, hserve, hverdict]
  rw [peerVerdict] at hverdict
  cases h : packetEndpoints packet with
  | error e =>
    obtain ⟨text, rfl⟩ := packetEndpoints_error h
    obtain rfl : .unsupported = verdict := by simpa [h] using hverdict
    exact .inl ⟨rfl, .inr ⟨rfl, rfl⟩⟩
  | ok endpoints =>
    obtain ⟨source, destination⟩ := endpoints
    rw [h] at hverdict
    dsimp only at hverdict ⊢
    by_cases hsource : source = peer.vpnIp
    · obtain rfl : .routes destination = verdict := by simpa [hsource] using hverdict
      exact .inl ⟨if_neg (by simp [hsource]), .inl ⟨destination, rfl, rfl⟩⟩
    · -- Different addresses have different texts.
      have htext : source.text ≠ peer.vpnIp.text := mt IPv4Address.text_injective hsource
      obtain rfl : .spoofed source = verdict := by simpa [hsource] using hverdict
      exact .inr ⟨if_pos htext, ⟨source, rfl⟩, rfl⟩

/-- A packet from `10.71.13.62` to `255.255.255.255`. -/
def broadcastPacket : Bytes := 0x45 :: List.replicate 11 0 ++ [10, 71, 13, 62, 255, 255, 255, 255]

/-- The peer at `10.0.0.2`. -/
def peerAtTwo : PeerConnection ℕ := ⟨0, .ofBytes [10, 0, 0, 2], none⟩

/-- The client at that address drops the packet. -/
theorem egress_agrees_broadcast :
    tunToNet (clientTunIp "10.0.0.2") broadcastPacket = .ok .drops ∧
      ∃ source, peerVerdict peerAtTwo.vpnIp broadcastPacket = .ok (.spoofed source) := by
  have hpeer : IPv4Address.ofText "10.0.0.2" = some peerAtTwo.vpnIp := by decide
  have hpacket : broadcastPacket ≠ [] := by decide
  obtain ⟨h, -⟩ | ⟨h, hspoofed, -⟩ := egress_agrees hpeer hpacket PeerRegistry.smallRegistry 0
  · exact absurd h (by decide)
  · exact ⟨h, hspoofed⟩

end SecNet
