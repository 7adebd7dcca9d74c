import SecNet.Lib.Transition
import SecNet.Record.Cipher

/-!
# The record channel under attack

A sender and a receiver of one direction of a session, with the sender of the
opposite direction, which has a key of its own. An attacker decides what the
receiver is given: at any moment, any byte string, whether it is a record of
either direction, old or new, or not.

The AEAD is authentic: what opens under a key was sealed under that key. This
is said of the steps of the attacker (`Authentic`), against the calls of the
AEAD so far, so that nothing is assumed of what has not been sealed yet.

* `Inv`: the counters are the numbers of packets, and the calls of the AEAD
  under the key of the sender are those of its packets, each under its number;
* `inv_of_run`: it holds along every run;
* `record_channel`: the packets received are a prefix of the packets sent, a
  rejected record changes nothing, the next genuine record is accepted, and no
  nonce is used twice.
-/

namespace SecNet

/-- What happens on a channel. -/
inductive ChannelEvent
  /-- A packet is given to `encrypt`. -/
  | encrypt (packet : Bytes)
  /-- A packet is given to `encrypt` in the opposite direction. -/
  | encryptOpposite (packet : Bytes)
  /-- The attacker gives a byte string to `decrypt`. -/
  | decrypt (record : Bytes)

/-- A channel: the ciphers of its ends, and what has gone through them. -/
structure Channel where
  sender : SessionCipher
  opposite : SessionCipher
  receiver : SessionCipher
  /-- The packets given to `encrypt`. -/
  packets : List Bytes
  /-- The records it returned. -/
  records : List Bytes
  /-- The calls of the AEAD to seal, in both directions. -/
  calls : List Sealed
  /-- The packets `decrypt` returned. -/
  returned : List Bytes

namespace Channel

/-- A new channel, of the keys of its direction and of the opposite one. -/
def new (aead : Aead) (key key' : Bytes) : Channel where
  sender := .new aead key
  opposite := .new aead key'
  receiver := .new aead key
  packets := []
  records := []
  calls := []
  returned := []

/-- The calls of the AEAD when a cipher encrypts a packet. -/
def callsOf (c : SessionCipher) (packet : Bytes) : List Sealed :=
  match c.aeadSeal c.sendSequence packet with
  | .ok s => [s]
  | .error _ => []

/-- The result of a call, if it has not raised. -/
def returnedOf (r : Except Exn Bytes) : List Bytes :=
  match r with
  | .ok b => [b]
  | .error _ => []

/-- What happens at an event. -/
def next (c : Channel) : ChannelEvent → Channel
  | .encrypt packet =>
    { c with
      sender := (c.sender.encrypt packet).2
      packets := c.packets ++ [packet]
      records := c.records ++ returnedOf (c.sender.encrypt packet).1
      calls := c.calls ++ callsOf c.sender packet }
  | .encryptOpposite packet =>
    { c with
      opposite := (c.opposite.encrypt packet).2
      calls := c.calls ++ callsOf c.opposite packet }
  | .decrypt record =>
    { c with
      receiver := (c.receiver.decrypt record).2
      returned := c.returned ++ returnedOf (c.receiver.decrypt record).1 }

/-- The channels of an AEAD and of two different keys. -/
def system (aead : Aead) (key key' : Bytes) : System Channel ChannelEvent :=
  .ofFun (· = new aead key key') next

/-- The AEAD is authentic at an event: if what the attacker gives to `decrypt`
    opens under the key of the receiver, with the nonce and the associated data
    of the number it carries, then it is the result of a call to seal under that
    key, with that nonce and that associated data. -/
def Authentic (c : Channel) : ChannelEvent → Prop
  | .decrypt record =>
    let n := unpackBE (record.take 8)
    let nonce := SessionCipher.nonceBytes n
    let aad := SessionCipher.aadBytes n
    (c.receiver.aead.decrypt c.receiver.key nonce (record.drop 8) aad).isOk →
      ⟨c.receiver.key, nonce, record.drop 8, aad⟩ ∈ c.calls
  | _ => True

instance (c : Channel) (e : ChannelEvent) : Decidable (c.Authentic e) :=
  match e with
  | .encrypt _ => inferInstanceAs (Decidable True)
  | .encryptOpposite _ => inferInstanceAs (Decidable True)
  | .decrypt _ => inferInstanceAs (Decidable (_ → _))

/-! ## The invariant -/

/-- The call of the AEAD for the packet `p` of number `n`. -/
def call (aead : Aead) (key : Bytes) (n : ℕ) (p : Bytes) : Sealed :=
  ⟨key, SessionCipher.nonceBytes n, SessionCipher.ciphertext aead key n p,
    SessionCipher.aadBytes n⟩

/-- The invariant of a channel: the counters count the packets, the records and
    the calls of the AEAD are those of the packets, each under its number, and
    the packets received are a prefix of the packets sent. -/
structure Inv (aead : Aead) (key key' : Bytes) (c : Channel) : Prop where
  sender : c.sender = ⟨aead, key, c.packets.length, 0⟩
  opposite : c.opposite.key = key'
  receiver : c.receiver = ⟨aead, key, 0, c.returned.length⟩
  records : c.records = c.packets.mapIdx (SessionCipher.record aead key)
  calls : c.calls.filter (fun s => s.key = key) = c.packets.mapIdx (call aead key)
  returned : c.returned <+: c.packets

variable {aead : Aead} {key key' : Bytes} {c c' : Channel}

theorem inv_new (aead : Aead) (key key' : Bytes) : Inv aead key key' (new aead key key') where
  sender := rfl
  opposite := rfl
  receiver := rfl
  records := rfl
  calls := rfl
  returned := List.prefix_refl _

/-- No packet is forgotten. -/
theorem length_packets_le (c : Channel) (e : ChannelEvent) :
    c.packets.length ≤ (c.next e).packets.length := by
  cases e <;> simp [next]

/-- The calls of the opposite direction are under its own key. -/
theorem key_of_mem_callsOf {c : SessionCipher} {p : Bytes} {s : Sealed} (hs : s ∈ callsOf c p) :
    s.key = c.key := by
  rw [callsOf] at hs
  by_cases h : c.sendSequence < 2 ^ 64
  · rw [SessionCipher.aeadSeal_of_lt h] at hs
    rw [List.mem_singleton.1 hs]
  · rw [SessionCipher.aeadSeal, SessionCipher.nonce, packQ, if_neg h] at hs
    cases hs

/-- Encrypting a packet, under the next number. -/
theorem inv_encrypt (hinv : Inv aead key key' c) (hn : c.packets.length < 2 ^ 64) (p : Bytes) :
    Inv aead key key' (c.next (.encrypt p)) := by
  have hseq : c.sender.sendSequence = c.packets.length := by rw [hinv.sender]
  have hlt : c.sender.sendSequence < 2 ^ 64 := hseq ▸ hn
  refine ⟨?_, hinv.opposite, hinv.receiver, ?_, ?_, hinv.returned.trans (List.prefix_append _ _)⟩
  · simp only [next, SessionCipher.encrypt_of_lt hlt, List.length_append, List.length_singleton]
    rw [hinv.sender]
  · simp only [next, SessionCipher.encrypt_of_lt hlt, returnedOf]
    rw [hinv.records, List.mapIdx_append, hinv.sender]
    simp
  · simp only [next, callsOf, SessionCipher.aeadSeal_of_lt hlt]
    rw [List.filter_append, hinv.calls, List.mapIdx_append, hinv.sender]
    simp [call]

/-- Encrypting in the opposite direction adds no call under the key. -/
theorem inv_encryptOpposite (hkey : key ≠ key') (hinv : Inv aead key key' c) (p : Bytes) :
    Inv aead key key' (c.next (.encryptOpposite p)) := by
  refine ⟨hinv.sender, ?_, hinv.receiver, hinv.records, ?_, hinv.returned⟩
  · exact hinv.opposite
  · simp only [next]
    rw [List.filter_append, hinv.calls]
    have hnil : (callsOf c.opposite p).filter (fun s => s.key = key) = [] := by
      refine List.filter_eq_nil_iff.2 fun s hs h => hkey ?_
      rw [← hinv.opposite, ← key_of_mem_callsOf hs]
      exact (of_decide_eq_true h).symm
    rw [hnil, List.append_nil]

/-- Decrypting what the attacker gives: an accepted record is that of the next
    packet, as the nonce of its call names its number. -/
theorem inv_decrypt (haead : aead.Correct) (hinv : Inv aead key key' c)
    (hn : c.packets.length < 2 ^ 64) {r : Bytes} (hauth : c.Authentic (.decrypt r)) :
    Inv aead key key' (c.next (.decrypt r)) := by
  rcases hd : c.receiver.decrypt r with ⟨e | p, receiver'⟩
  · have := SessionCipher.decrypt_error hd
    refine ⟨hinv.sender, hinv.opposite, ?_, hinv.records, hinv.calls, ?_⟩
    · simpa [next, hd, this, returnedOf] using hinv.receiver
    · simpa [next, hd, returnedOf] using hinv.returned
  · obtain ⟨hlt, hseq, hopen, rfl⟩ := SessionCipher.decrypt_eq_ok hd
    simp only [Authentic, hseq] at hauth
    have hcall := hauth (by rw [hopen]; rfl)
    rw [hinv.receiver] at hopen hcall hlt
    have hmem : _ ∈ c.calls.filter (fun s => s.key = key) :=
      List.mem_filter.2 ⟨hcall, decide_eq_true rfl⟩
    rw [hinv.calls, List.mem_mapIdx] at hmem
    obtain ⟨n, hlen, heq⟩ := hmem
    simp only [call, Sealed.mk.injEq, true_and] at heq
    obtain ⟨hnonce, hct, -⟩ := heq
    obtain rfl : n = c.returned.length := SessionCipher.nonce_injective (hlen.trans hn) hlt hnonce
    have hp : c.packets[c.returned.length] = p := by
      rw [← hct, SessionCipher.ciphertext, haead.decrypt_encrypt] at hopen
      exact Except.ok.inj hopen
    refine ⟨hinv.sender, hinv.opposite, ?_, hinv.records, hinv.calls, ?_⟩
    · simp only [next, hd, returnedOf, List.length_append, List.length_singleton]
      rw [hinv.receiver]
    · simp only [next, hd, returnedOf]
      exact hp ▸ List.concat_get_prefix hinv.returned hlen

/-- The invariant holds along every run in which the AEAD is authentic. -/
theorem inv_of_run (haead : aead.Correct) (hkey : key ≠ key') {events : List ChannelEvent}
    (hrun : ((system aead key key').restrict Authentic).Run (new aead key key') events c)
    (hn : c.packets.length < 2 ^ 64) : Inv aead key key' c := by
  induction hrun with
  | nil => exact inv_new aead key key'
  | @snoc c₁ _ _ event _ hstep ih =>
    obtain ⟨rfl, hauth⟩ := hstep
    have hn₁ := lt_of_le_of_lt (length_packets_le c₁ event) hn
    have hinv := ih hn₁
    cases event with
    | encrypt p => exact inv_encrypt hinv hn₁ p
    | encryptOpposite p => exact inv_encryptOpposite hkey hinv p
    | decrypt r => exact inv_decrypt haead hinv hn₁ hauth

/-- Whatever the attacker gives to `decrypt`, the packets it has returned are a
    prefix of the packets sent, a rejected record changes nothing, so that the
    next genuine record is accepted, and no two calls of `encrypt` use the same
    nonce. -/
theorem record_channel (haead : aead.Correct) (hkey : key ≠ key') {events : List ChannelEvent}
    (hrun : ((system aead key key').restrict Authentic).Run (new aead key key') events c)
    (hn : c.packets.length < 2 ^ 64) :
    c.returned <+: c.packets ∧
      (∀ r e, (c.receiver.decrypt r).1 = .error e → (c.receiver.decrypt r).2 = c.receiver) ∧
      (c.returned.length < c.packets.length → ∃ r p, c.records[c.returned.length]? = some r ∧
        c.packets[c.returned.length]? = some p ∧ (c.receiver.decrypt r).1 = .ok p) ∧
      ((c.calls.filter fun s => s.key = key).map Sealed.nonce).Nodup := by
  have hinv := inv_of_run haead hkey hrun hn
  refine ⟨hinv.returned, fun r e he => ?_, fun hlen => ?_, ?_⟩
  · exact SessionCipher.decrypt_error (Prod.ext he rfl)
  · refine ⟨SessionCipher.record aead key c.returned.length c.packets[c.returned.length],
      c.packets[c.returned.length], ?_, List.getElem?_eq_getElem hlen, ?_⟩
    · rw [hinv.records, List.getElem?_mapIdx, List.getElem?_eq_getElem hlen]
      rfl
    · rw [hinv.receiver, SessionCipher.decrypt_record (c := ⟨aead, key, 0, c.returned.length⟩) haead
        (hlen.trans hn)]
  · -- The nonces are those of the numbers of the packets, in order.
    rw [hinv.calls, List.Nodup, List.pairwise_iff_getElem]
    intro i j hi hj hij h
    simp only [List.length_map, List.length_mapIdx] at hi hj
    simp only [List.getElem_map, List.getElem_mapIdx, call] at h
    exact hij.ne (SessionCipher.nonce_injective (hi.trans hn) (hj.trans hn) h)

/-- A run with a record of the opposite direction, a genuine record, the same
    record again, and a later record too early. -/
def attack : List ChannelEvent :=
  let k := ascii "client to server"
  let k' := ascii "server to client"
  [.encrypt [7], .encryptOpposite [8], .encrypt [9], .encrypt [10],
    .decrypt (SessionCipher.record tagAead k' 0 [8]),
    .decrypt (SessionCipher.record tagAead k 0 [7]),
    .decrypt (SessionCipher.record tagAead k 0 [7]),
    .decrypt (SessionCipher.record tagAead k 2 [10])]

theorem run_attack : ((system tagAead (ascii "client to server")
    (ascii "server to client")).restrict Authentic).Run
      (new tagAead (ascii "client to server") (ascii "server to client")) attack
      (attack.foldl next (new tagAead (ascii "client to server") (ascii "server to client"))) :=
  .ofFun_foldl (by decide)

/-- The run of `attack` delivers the genuine record, once. -/
theorem record_channel_attack :
    let c := attack.foldl next (new tagAead (ascii "client to server") (ascii "server to client"))
    c.returned = [[7]] ∧ c.packets = [[7], [9], [10]] ∧ c.returned <+: c.packets :=
  ⟨by decide, by decide, (record_channel tagAead_correct (by decide) run_attack (by decide)).1⟩

end Channel

end SecNet
