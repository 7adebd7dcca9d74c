import SecNet.Handshake.KeyExchange

/-!
# The chain digests

What `_chain_digest` feeds to SHA-256: a label, and then every part after its
length on two bytes. The label has no length before it; it is told from the
other one by its fifth byte.

* `chainInput_unambiguous`: the bytes that are hashed determine the label and
  the parts, so that equal digests of anything else are a collision;
* `dhChain_treekem_collision`: a secret of `dh-chain` that is also a secret of
  `treekem` is one.
-/

namespace SecNet

variable {F : Type} (C : Crypto)

/-- The labels of `_chain_digest`. -/
def chainLabels : List Bytes := [ascii "vpn dh-chain v1", ascii "vpn treekem two-party root v1"]

/-- Parts are hashed only when they are not long. -/
theorem length_lt_of_chainInput {parts : List Bytes} {input : Bytes}
    (h : chainInput parts = .ok input) : ∀ p ∈ parts, p.length < 65536 := by
  induction parts generalizing input with
  | nil => simp
  | cons p parts ih =>
    rw [chainInput] at h
    split_ifs at h with hp
    obtain ⟨rest, hrest, -⟩ := bind_eq_ok.1 h
    exact List.forall_mem_cons.2 ⟨hp, ih hrest⟩

/-- The labels are told apart by what they start with. -/
theorem chainLabels_eq {label label' : Bytes} (h : label ∈ chainLabels) (h' : label' ∈ chainLabels)
    {s t : Bytes} (heq : label ++ s = label' ++ t) : label = label' := by
  have htake : (label ++ s).take 5 = (label' ++ t).take 5 := by rw [heq]
  have hlen : ∀ l ∈ chainLabels, 5 ≤ l.length := by decide
  rw [List.take_append_of_le_length (hlen _ h), List.take_append_of_le_length (hlen _ h')] at htake
  have hinj : ∀ l ∈ chainLabels, ∀ l' ∈ chainLabels, l.take 5 = l'.take 5 → l = l' := by decide
  exact hinj _ h _ h' htake

/-- What is hashed has one reading. -/
theorem chainInput_injective {label label' : Bytes} (hlabel : label ∈ chainLabels)
    (hlabel' : label' ∈ chainLabels) {parts parts' : List Bytes} {input input' : Bytes}
    (h : chainInput parts = .ok input) (h' : chainInput parts' = .ok input')
    (heq : label ++ input = label' ++ input') : label = label' ∧ parts = parts' := by
  obtain rfl := chainLabels_eq hlabel hlabel' heq
  have hlt := length_lt_of_chainInput h
  have hlt' := length_lt_of_chainInput h'
  rw [chainInput_eq hlt] at h
  rw [chainInput_eq hlt'] at h'
  obtain rfl := Except.ok.inj h
  obtain rfl := Except.ok.inj h'
  exact ⟨rfl, (prefixFree_lengthPrefixed 2).flatMap_injective
    (lengthPrefixed_ne_nil two_ne_zero) hlt hlt'
    (List.append_cancel_left heq)⟩

/-- The bytes that `_chain_digest` hashes determine the label and the parts: the
    digests of other labels or parts differ, or are a collision of SHA-256. -/
theorem chainInput_unambiguous {label label' : Bytes} (hlabel : label ∈ chainLabels)
    (hlabel' : label' ∈ chainLabels) {parts parts' : List Bytes}
    (h : ∀ p ∈ parts, p.length < 65536) (h' : ∀ p ∈ parts', p.length < 65536) :
    ∃ input input', chainInput parts = .ok input ∧ chainInput parts' = .ok input' ∧
      chainDigest C parts label = .ok (C.sha256 (label ++ input)) ∧
      chainDigest C parts' label' = .ok (C.sha256 (label' ++ input')) ∧
      (label ++ input = label' ++ input' → label = label' ∧ parts = parts') ∧
      (chainDigest C parts label = chainDigest C parts' label' →
        (label = label' ∧ parts = parts') ∨
        label ++ input ≠ label' ++ input' ∧
          C.sha256 (label ++ input) = C.sha256 (label' ++ input')) := by
  have hinj := chainInput_injective hlabel hlabel' (chainInput_eq h) (chainInput_eq h')
  have hdigest := chainDigest_eq (C := C) (chainInput_eq h) label
  have hdigest' := chainDigest_eq (C := C) (chainInput_eq h') label'
  refine ⟨_, _, chainInput_eq h, chainInput_eq h', hdigest, hdigest', hinj, fun heq => ?_⟩
  rw [hdigest, hdigest', Except.ok.injEq] at heq
  by_cases hsame : label = label' ∧ parts = parts'
  · exact .inl hsame
  · exact .inr ⟨mt hinj hsame, heq⟩

/-- Of two lists that are cut from the same bytes. -/
theorem chainInput_unambiguous_cut :
    ∃ input input', chainInput [[1, 2], [3]] = .ok input ∧ chainInput [[1], [2, 3]] = .ok input' ∧
      (ascii "vpn dh-chain v1" ++ input = ascii "vpn dh-chain v1" ++ input' →
        ([[1, 2], [3]] : List Bytes) = [[1], [2, 3]]) := by
  have hlabel : ascii "vpn dh-chain v1" ∈ chainLabels := by decide
  have hparts : ∀ p ∈ ([[1, 2], [3]] : List Bytes), p.length < 65536 := by decide
  have hparts' : ∀ p ∈ ([[1], [2, 3]] : List Bytes), p.length < 65536 := by decide
  obtain ⟨input, input', h, h', -, -, hinj, -⟩ :=
    chainInput_unambiguous plainCrypto hlabel hlabel hparts hparts'
  exact ⟨input, input', h, h', fun heq => (hinj heq).2⟩

/-! ## The secrets of the two key exchanges -/

/-- A secret that an end of a key exchange may come to. -/
inductive ExchangeSecret (F : Type) (name : String) (secret : Bytes) : Prop
  | server {mlKemAvailable : Bool} {e : ServerEphemeral C} {payload : Json F} {reply : Dict F} :
    serverKeyExchangeResponse C mlKemAvailable e name payload = .ok (secret, reply) →
      ExchangeSecret F name secret
  | client {e : ClientEphemeral C} {payload : Dict F} {reply : Json F} :
    clientKeyExchangeFinish C name e payload reply = .ok secret → ExchangeSecret F name secret

variable {C}

/-- A secret of `dh-chain` is a digest under its label. -/
theorem ExchangeSecret.dhChain {secret : Bytes} (h : ExchangeSecret C F "dh-chain" secret) :
    ∃ parts, chainDigest C parts (ascii "vpn dh-chain v1") = .ok secret := by
  cases h with
  | server h =>
    rw [serverKeyExchangeResponse, bind_eq_ok] at h
    obtain ⟨d, -, h⟩ := h
    simp only [String.reduceEq, ↓reduceIte] at h
    split_ifs at h
    split at h
    · obtain ⟨shared, -, h⟩ := bind_eq_ok.1 h
      obtain ⟨digest, hdigest, h⟩ := bind_eq_ok.1 h
      obtain rfl : digest = secret := (Prod.mk.inj (Except.ok.inj h)).1
      exact ⟨shared, hdigest⟩
    · cases h
  | client h =>
    rw [clientKeyExchangeFinish, bind_eq_ok] at h
    obtain ⟨d, -, h⟩ := h
    simp only [String.reduceEq, ↓reduceIte] at h
    split_ifs at h
    split at h
    · obtain ⟨shared, -, h⟩ := bind_eq_ok.1 h
      exact ⟨shared, h⟩
    · cases h

/-- A secret of `treekem` is a digest under its label. -/
theorem ExchangeSecret.treekem {secret : Bytes} (h : ExchangeSecret C F "treekem" secret) :
    ∃ parts, chainDigest C parts (ascii "vpn treekem two-party root v1") = .ok secret := by
  cases h with
  | server h =>
    rw [serverKeyExchangeResponse, bind_eq_ok] at h
    obtain ⟨d, -, h⟩ := h
    simp only [String.reduceEq, ↓reduceIte, true_or] at h
    split_ifs at h
    obtain ⟨encoded, -, h⟩ := bind_eq_ok.1 h
    obtain ⟨clientPublic, -, h⟩ := bind_eq_ok.1 h
    obtain ⟨shared, -, h⟩ := bind_eq_ok.1 h
    obtain ⟨digest, hdigest, h⟩ := bind_eq_ok.1 h
    obtain rfl : digest = secret := (Prod.mk.inj (Except.ok.inj h)).1
    exact ⟨_, hdigest⟩
  | client h =>
    rw [clientKeyExchangeFinish, bind_eq_ok] at h
    obtain ⟨d, -, h⟩ := h
    simp only [String.reduceEq, ↓reduceIte, true_or] at h
    split_ifs at h
    obtain ⟨encoded, -, h⟩ := bind_eq_ok.1 h
    obtain ⟨clientPublic, -, h⟩ := bind_eq_ok.1 h
    obtain ⟨encoded', -, h⟩ := bind_eq_ok.1 h
    obtain ⟨serverPublic, -, h⟩ := bind_eq_ok.1 h
    obtain ⟨shared, -, h⟩ := bind_eq_ok.1 h
    exact ⟨_, h⟩

/-- A secret of both is the digest of two different inputs. -/
theorem dhChain_treekem_collision {secret : Bytes} (h : ExchangeSecret C F "dh-chain" secret)
    (h' : ExchangeSecret C F "treekem" secret) :
    ∃ s t, ascii "vpn dh-chain v1" ++ s ≠ ascii "vpn treekem two-party root v1" ++ t ∧
      C.sha256 (ascii "vpn dh-chain v1" ++ s) = secret ∧
      C.sha256 (ascii "vpn treekem two-party root v1" ++ t) = secret := by
  obtain ⟨parts, hparts⟩ := h.dhChain
  obtain ⟨parts', hparts'⟩ := h'.treekem
  obtain ⟨s, -, hs⟩ := bind_eq_ok.1 hparts
  obtain ⟨t, -, ht⟩ := bind_eq_ok.1 hparts'
  refine ⟨s, t, fun heq => ?_, Except.ok.inj hs, Except.ok.inj ht⟩
  exact absurd (chainLabels_eq (by decide) (by decide) heq) (by decide)

end SecNet
