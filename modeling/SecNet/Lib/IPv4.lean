import Mathlib.Tactic

/-!
# IPv4 addresses and networks

Addresses with their dotted-decimal text, and networks with their hosts, as the
`ipaddress` module has them: text is read strictly (four octets, no leading
zero), and `hosts` leaves out the network and the broadcast address unless the
network has no other.

* `IPv4Address.ofText_text`: an address is read back from its text;
* `IPv4Address.text_of_ofText`: which is the only text that is read as it;
* `IPv4Network.mem_iff`: a network is an interval of addresses;
* `IPv4Network.mem_of_mem_hosts`: hosts are addresses of the network;
* `IPv4Network.pairwise_hosts`: hosts come in order, without repetition.
-/

namespace SecNet

/-- An IPv4 address. -/
@[ext]
structure IPv4Address where
  ip : ℕ
  ip_lt : ip < 2 ^ 32
  deriving DecidableEq

namespace IPv4Address

/-- The `k`-th octet of an address. -/
def octet (a : IPv4Address) (k : ℕ) : ℕ := a.ip / 256 ^ (3 - k) % 256

/-- The digits of a number. -/
def digits (n : ℕ) : List Char := Nat.toDigits 10 n

/-- `str(address)`. -/
def text (a : IPv4Address) : String :=
  .ofList (['.'].intercalate [digits (a.octet 0), digits (a.octet 1), digits (a.octet 2),
    digits (a.octet 3)])

/-- An octet in text: at most three digits, without a leading zero. -/
def parseOctet (s : List Char) : Option ℕ :=
  if s = [] ∨ ¬ s.all Char.isDigit ∨ 3 < s.length ∨ (s ≠ ['0'] ∧ s.head? = some '0') then none
  else if 255 < Nat.ofDigitChars 10 s 0 then none
  else some (Nat.ofDigitChars 10 s 0)

/-- The address of four octets. -/
def ofOctets (a b c d : ℕ) : Option IPv4Address :=
  if h : ((a * 256 + b) * 256 + c) * 256 + d < 2 ^ 32 then some ⟨_, h⟩ else none

/-- `IPv4Address(text)`, where the text is that of an address. -/
def ofText (s : String) : Option IPv4Address :=
  match s.toList.splitOn '.' with
  | [a, b, c, d] => do
    ofOctets (← parseOctet a) (← parseOctet b) (← parseOctet c) (← parseOctet d)
  | _ => none

theorem octet_lt (a : IPv4Address) (k : ℕ) : a.octet k < 256 := Nat.mod_lt _ (by norm_num)

/-- The octets of an address are its digits in base 256. -/
theorem ofOctets_octet (a : IPv4Address) :
    ofOctets (a.octet 0) (a.octet 1) (a.octet 2) (a.octet 3) = some a := by
  have hlt := a.ip_lt
  have h : ((a.octet 0 * 256 + a.octet 1) * 256 + a.octet 2) * 256 + a.octet 3 = a.ip := by
    simp only [octet]
    omega
  rw [ofOctets, dif_pos (h ▸ hlt)]
  congr 1
  exact IPv4Address.ext h

theorem octet_text : ∀ n < 256, parseOctet (digits n) = some n ∧ '.' ∉ digits n := by
  decide +kernel

/-- An address is read back from its text. -/
theorem ofText_text (a : IPv4Address) : ofText a.text = some a := by
  have hsplit : a.text.toList.splitOn '.' = [digits (a.octet 0), digits (a.octet 1),
      digits (a.octet 2), digits (a.octet 3)] := by
    rw [text, String.toList_ofList]
    refine List.splitOn_intercalate '.' ?_ (by simp)
    intro s hs
    simp only [List.mem_cons, List.not_mem_nil, or_false] at hs
    rcases hs with rfl | rfl | rfl | rfl <;> exact (octet_text _ (octet_lt a _)).2
  rw [ofText, hsplit]
  simp only [(octet_text _ (octet_lt a _)).1, Option.bind_eq_bind, Option.bind_some]
  exact ofOctets_octet a

theorem text_injective {a b : IPv4Address} (h : a.text = b.text) : a = b :=
  Option.some.inj (by rw [← ofText_text a, h, ofText_text b])

theorem exists_digitChar {c : Char} (h : c.isDigit) : ∃ d < 10, c = d.digitChar := by
  have hc : 48 ≤ c.toNat ∧ c.toNat ≤ 57 := by
    simpa [Char.isDigit, UInt32.le_iff_toNat_le] using h
  have hlt : c.toNat - 48 < 10 := by omega
  refine ⟨c.toNat - 48, hlt, Char.toNat_inj.1 ?_⟩
  rw [Nat.toNat_digitChar_of_lt_ten hlt]
  omega

/-- Digits are those of the number they read as, unless they start with a zero. -/
theorem digits_ofDigitChars {s : List Char} (hne : s ≠ []) (hdigit : ∀ c ∈ s, c.isDigit)
    (hzero : s = ['0'] ∨ s.head? ≠ some '0') : digits (Nat.ofDigitChars 10 s 0) = s := by
  induction s using List.reverseRecOn with
  | nil => exact absurd rfl hne
  | append_singleton s c ih =>
    obtain ⟨d, hd, rfl⟩ := exists_digitChar (hdigit c (by simp))
    rw [Nat.ofDigitChars_append, Nat.ofDigitChars_cons_digitChar_of_lt_ten hd, Nat.ofDigitChars_nil]
    by_cases hs : s = []
    · subst hs
      simpa [digits] using Nat.toDigits_of_lt_base hd
    · -- The number before the last digit is not zero: its digits would be a zero.
      have hhead : s.head? ≠ some '0' := by
        rcases hzero with hzero | hzero
        · exact absurd (congrArg List.length hzero) (by simp [hs])
        · rwa [List.head?_append_of_ne_nil _ hs] at hzero
      have hprev := ih hs (fun c hc => hdigit c (by simp [hc])) (.inr hhead)
      have hpos : 0 < Nat.ofDigitChars 10 s 0 := by
        by_contra h0
        rw [Nat.eq_zero_of_not_pos h0] at hprev
        exact hhead (by rw [← hprev]; rfl)
      rw [digits, ← Nat.toDigits_append_toDigits (by norm_num) hpos hd, ← digits, hprev,
        Nat.toDigits_of_lt_base hd]

theorem parseOctet_eq_some {s : List Char} {n : ℕ} (h : parseOctet s = some n) :
    n < 256 ∧ digits n = s := by
  rw [parseOctet] at h
  split_ifs at h with hs hmax
  obtain rfl := Option.some.inj h
  push Not at hs
  obtain ⟨hne, hdigit, -, hzero⟩ := hs
  refine ⟨by omega, digits_ofDigitChars hne (List.all_eq_true.1 (by simpa using hdigit)) ?_⟩
  by_cases h0 : s = ['0']
  · exact .inl h0
  · exact .inr (hzero h0)

theorem octet_ofOctets {o₀ o₁ o₂ o₃ : ℕ} {a : IPv4Address} (h : ofOctets o₀ o₁ o₂ o₃ = some a)
    (h₁ : o₁ < 256) (h₂ : o₂ < 256) (h₃ : o₃ < 256) :
    a.octet 0 = o₀ ∧ a.octet 1 = o₁ ∧ a.octet 2 = o₂ ∧ a.octet 3 = o₃ := by
  rw [ofOctets] at h
  split_ifs at h
  obtain rfl := Option.some.inj h
  simp only [octet]
  omega

/-- The text of an address has only digits and dots. -/
theorem mem_text {a : IPv4Address} {c : Char} (h : c ∈ a.text.toList) : c.isDigit ∨ c = '.' := by
  have hdigits : ∀ n, c ∈ digits n → c.isDigit := fun _ hc =>
    Nat.isDigit_of_mem_toDigits (by norm_num) (by norm_num) hc
  rw [text, String.toList_ofList] at h
  simp only [List.intercalate_cons_cons, List.intercalate_singleton, List.mem_append,
    List.mem_singleton] at h
  have h₀ := hdigits (a.octet 0)
  have h₁ := hdigits (a.octet 1)
  have h₂ := hdigits (a.octet 2)
  have h₃ := hdigits (a.octet 3)
  tauto

/-- The text that is read as an address is the one that is printed for it. -/
theorem text_of_ofText {s : String} {a : IPv4Address} (h : ofText s = some a) : a.text = s := by
  rw [ofText] at h
  split at h
  · rename_i s₀ s₁ s₂ s₃ hsplit
    simp only [Option.bind_eq_bind, Option.bind_eq_some_iff] at h
    obtain ⟨o₀, h₀, o₁, h₁, o₂, h₂, o₃, h₃, h⟩ := h
    obtain ⟨-, rfl⟩ := parseOctet_eq_some h₀
    obtain ⟨hlt₁, rfl⟩ := parseOctet_eq_some h₁
    obtain ⟨hlt₂, rfl⟩ := parseOctet_eq_some h₂
    obtain ⟨hlt₃, rfl⟩ := parseOctet_eq_some h₃
    obtain ⟨rfl, rfl, rfl, rfl⟩ := octet_ofOctets h hlt₁ hlt₂ hlt₃
    rw [text, ← hsplit, List.intercalate_splitOn, String.ofList_toList]
  · cases h

end IPv4Address

/-- An IPv4 network: its first address, and the length of its prefix. -/
structure IPv4Network where
  networkAddress : ℕ
  prefixlen : ℕ
  prefixlen_le : prefixlen ≤ 32
  /-- The bits after the prefix are zero. -/
  dvd : 2 ^ (32 - prefixlen) ∣ networkAddress
  networkAddress_lt : networkAddress < 2 ^ 32

namespace IPv4Network

/-- `num_addresses`. -/
def numAddresses (n : IPv4Network) : ℕ := 2 ^ (32 - n.prefixlen)

/-- `broadcast_address`. -/
def broadcastAddress (n : IPv4Network) : ℕ := n.networkAddress + n.numAddresses - 1

/-- `ip_network((address, prefixlen), strict=False)`. -/
def ofAddress (a : IPv4Address) (prefixlen : ℕ) (h : prefixlen ≤ 32) : IPv4Network where
  networkAddress := a.ip / 2 ^ (32 - prefixlen) * 2 ^ (32 - prefixlen)
  prefixlen := prefixlen
  prefixlen_le := h
  dvd := Dvd.intro_left _ rfl
  networkAddress_lt := lt_of_le_of_lt (Nat.div_mul_le_self _ _) a.ip_lt

/-- `address in network`: the address under the netmask is that of the network. -/
def Mem (n : IPv4Network) (a : IPv4Address) : Prop :=
  a.ip / n.numAddresses * n.numAddresses = n.networkAddress

instance : Membership IPv4Address IPv4Network := ⟨Mem⟩

instance (a : IPv4Address) (n : IPv4Network) : Decidable (a ∈ n) :=
  inferInstanceAs (Decidable (a.ip / n.numAddresses * n.numAddresses = n.networkAddress))

theorem numAddresses_pos (n : IPv4Network) : 0 < n.numAddresses := Nat.two_pow_pos _

/-- The addresses of a network end before those of the next. -/
theorem add_numAddresses_le (n : IPv4Network) : n.networkAddress + n.numAddresses ≤ 2 ^ 32 := by
  have hdvd : n.numAddresses ∣ 2 ^ 32 := Nat.pow_dvd_pow 2 (Nat.sub_le _ _)
  obtain ⟨k, hk⟩ := n.dvd
  obtain ⟨m, hm⟩ := hdvd
  have hlt := n.networkAddress_lt
  rw [← numAddresses] at hk
  rw [hk, hm] at *
  have : k < m := Nat.lt_of_mul_lt_mul_left hlt
  calc n.numAddresses * k + n.numAddresses = n.numAddresses * (k + 1) := by ring
    _ ≤ n.numAddresses * m := Nat.mul_le_mul_left _ this

/-- A network is an interval of addresses. -/
theorem mem_iff {n : IPv4Network} {a : IPv4Address} :
    a ∈ n ↔ n.networkAddress ≤ a.ip ∧ a.ip < n.networkAddress + n.numAddresses := by
  have hpos := n.numAddresses_pos
  obtain ⟨k, hk⟩ := n.dvd
  rw [← numAddresses] at hk
  change a.ip / n.numAddresses * n.numAddresses = n.networkAddress ↔ _
  rw [hk, mul_comm n.numAddresses k, Nat.mul_left_inj hpos.ne', Nat.div_eq_iff hpos]
  constructor
  · rintro ⟨h₁, h₂⟩
    exact ⟨h₁, by omega⟩
  · rintro ⟨h₁, h₂⟩
    exact ⟨h₁, by omega⟩

/-- The addresses from `start` on, before `stop`. -/
def range (start stop : ℕ) (h : stop ≤ 2 ^ 32) : List IPv4Address :=
  (List.range' start (stop - start)).pmap IPv4Address.mk fun x hx => by
    have := List.mem_range'_1.1 hx
    omega

/-- `hosts()`, in order. -/
def hosts (n : IPv4Network) : List IPv4Address :=
  if n.prefixlen = 32 ∨ n.prefixlen = 31 then
    range n.networkAddress (n.networkAddress + n.numAddresses) n.add_numAddresses_le
  else
    range (n.networkAddress + 1) n.broadcastAddress
      ((Nat.sub_le _ _).trans n.add_numAddresses_le)

theorem mem_range {start stop : ℕ} {h : stop ≤ 2 ^ 32} {a : IPv4Address} :
    a ∈ range start stop h ↔ start ≤ a.ip ∧ a.ip < stop := by
  simp only [range, List.mem_pmap, List.mem_range'_1]
  constructor
  · rintro ⟨x, hx, rfl⟩
    dsimp only
    omega
  · rintro ⟨h₁, h₂⟩
    exact ⟨a.ip, by omega, rfl⟩

/-- Hosts are addresses of their network. -/
theorem mem_of_mem_hosts {n : IPv4Network} {a : IPv4Address} (h : a ∈ n.hosts) : a ∈ n := by
  rw [mem_iff]
  rw [hosts] at h
  split_ifs at h
  · exact mem_range.1 h
  · have := mem_range.1 h
    rw [broadcastAddress] at this
    omega

theorem pairwise_range {start stop : ℕ} {h : stop ≤ 2 ^ 32} :
    (range start stop h).Pairwise fun a b => a.ip < b.ip := by
  rw [range, List.pairwise_pmap]
  exact (List.pairwise_lt_range' 1).imp fun hlt _ _ => hlt

/-- Hosts come in order, without repetition. -/
theorem pairwise_hosts (n : IPv4Network) : n.hosts.Pairwise fun a b => a.ip < b.ip := by
  rw [hosts]
  split_ifs
  · exact pairwise_range
  · exact pairwise_range

end IPv4Network

end SecNet
