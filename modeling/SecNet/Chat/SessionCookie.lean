import SecNet.Chat.JsonValue
import SecNet.Chat.Login
import SecNet.Lib.Rsplit

/-!
# The session cookies

A cookie is the payload `{tag}.{expiry}` and its HMAC, both in base64 without padding, with a dot
between them. `_cookie_tag` cuts it at its last dot, decodes both parts, which skips whatever is
not of the alphabet, and cuts the payload at its last dot, all of this within a `try`; then it
compares the HMAC, and reads the expiry with `int`, which is not within the `try` any more.

* `cookieTag_makeCookie`: the tag of a minted cookie, up to its expiry;
* `spec_cookieTag`: of any other cookie, what is read comes from a minted one;
* `cookie_sound`: hence cookies decode to exactly what was minted.
-/

namespace SecNet

/-! ## Reading a cookie -/

/-- The translation of the URL-safe alphabet to the standard one. -/
def urlsafeDecodeTranslation (c : Char) : Char :=
  if c = '-' then '+' else if c = '_' then '/' else c

/-- `base64.urlsafe_b64decode(text)`. -/
def urlsafeB64decode (text : List Char) : Except Exn Bytes :=
  b64decodeText (.ofList (text.map urlsafeDecodeTranslation))

/-- `text + "=" * (-len(text) % 4)`. -/
def padB64 (text : List Char) : List Char :=
  text ++ List.replicate ((4 - text.length % 4) % 4) '='

/-- `text.rsplit(".", 1)`, as two variables are assigned to it. -/
def rsplitDot (text : List Char) : Except Exn (List Char × List Char) :=
  match rsplit '.' text with
  | some cut => .ok cut
  | none => .error (.valueError "not enough values to unpack (expected 2, got 1)")

/-- `int(text)`. -/
def intOf (text : List Char) : Except Exn ℤ :=
  match intOfStr (text.map Char.toNat) with
  | some n => .ok n
  | none => .error (.valueError "invalid literal for int() with base 10")

/-- The `try` of `_cookie_tag`: the signature, the tag and the expiry. -/
def readCookie (encoded supplied : List Char) : Except Exn (Bytes × List Char × List Char) := do
  let signature ← urlsafeB64decode (padB64 supplied)
  let raw ← urlsafeB64decode (padB64 encoded)
  match decodeUtf8 raw with
  | none => .error .unicodeDecodeError
  | some raw =>
    let (tag, expiry) ← rsplitDot raw
    return (signature, tag, expiry)

/-- `_cookie_tag`. -/
def cookieTag (C : Crypto) (sessionSecret : String) (cookie : Option String) (now : ℚ) :
    Except Exn (Option String) :=
  match cookie with
  | none => .ok none
  | some cookie =>
    if cookie = "" ∨ '.' ∉ cookie.toList then .ok none
    else do
      let (encoded, supplied) ← rsplitDot cookie.toList
      let expected := hmacSha256 C (encodeUtf8 sessionSecret.toList) (encodeUtf8 encoded)
      match readCookie encoded supplied with
      -- `except Exception`
      | .error _ => .ok none
      | .ok (signature, tag, expiry) =>
        if signature ≠ expected then .ok none
        else do
          let expiry ← intOf expiry
          if (expiry : ℚ) < now then .ok none else .ok (some (.ofList tag))

/-! ## What is minted -/

/-- A value of `time.time()`: that of a finite float. -/
structure ClockTime where
  seconds : ℚ
  abs_lt : |seconds| < 2 ^ 1024

/-- The expiry of a cookie that is minted at a time. -/
def cookieExpiry (time : ClockTime) : ℤ := time.seconds.num.tdiv time.seconds.den + 86400

/-- The first part of a cookie: its encoded payload. -/
def cookieEncoded (tag : String) (time : ClockTime) : List Char :=
  urlsafeB64 (encodeUtf8 (tag ++ "." ++ toString (cookieExpiry time)).toList)

theorem toList_makeCookie (C : Crypto) (sessionSecret tag : String) (time : ClockTime) :
    (makeCookie C sessionSecret tag time.seconds).toList = cookieEncoded tag time ++ '.' ::
      urlsafeB64 (hmacSha256 C (encodeUtf8 sessionSecret.toList)
        (encodeUtf8 (cookieEncoded tag time))) :=
  String.toList_ofList

/-! ## Base64 without padding -/

/-- The translation of the standard alphabet to the URL-safe one. -/
def urlsafeEncodeTranslation (c : Char) : Char :=
  if c = '+' then '-' else if c = '/' then '_' else c

/-- A character of the alphabet, in the URL-safe one. -/
theorem urlsafe_spec : ∀ c ∈ base64Alphabet, urlsafeEncodeTranslation c ≠ '=' ∧
    urlsafeEncodeTranslation c ≠ '.' ∧
    urlsafeDecodeTranslation (urlsafeEncodeTranslation c) = c := by
  have hall : base64Alphabet.all (fun c => urlsafeEncodeTranslation c ≠ '=' ∧
      urlsafeEncodeTranslation c ≠ '.' ∧
      urlsafeDecodeTranslation (urlsafeEncodeTranslation c) = c) = true := by rfl
  exact fun c hc => of_decide_eq_true (List.all_eq_true.1 hall c hc)

/-- What is left without the padding, which had at most two characters. -/
theorem urlsafeB64_eq (data : Bytes) : ∃ body k, b64encode data = body ++ List.replicate k '=' ∧
    k ≤ 2 ∧ (∀ c ∈ body, c ∈ base64Alphabet) ∧
    urlsafeB64 data = body.map urlsafeEncodeTranslation := by
  obtain ⟨body, k, hencode, hk, hbody⟩ := b64encode_shape data
  refine ⟨body, k, hencode, hk, hbody, ?_⟩
  have hpad : ∀ c ∈ List.replicate k '=', decide (c = '=') = true := fun c hc =>
    decide_eq_true (List.eq_of_mem_replicate hc)
  have hlast : ∀ c ∈ body.map urlsafeEncodeTranslation, c ≠ '=' := by
    intro c hc
    obtain ⟨d, hd, rfl⟩ := List.mem_map.1 hc
    exact (urlsafe_spec d (hbody d hd)).1
  have htext : (b64encode data).map urlsafeEncodeTranslation =
      body.map urlsafeEncodeTranslation ++ List.replicate k '=' := by
    rw [hencode, List.map_append, List.map_replicate]
    rfl
  change ((b64encode data).map urlsafeEncodeTranslation).rdropWhile (· = '=') = _
  rw [htext, List.rdropWhile, List.reverse_append, List.reverse_replicate,
    List.dropWhile_append_of_pos hpad, ← List.rdropWhile]
  exact List.rdropWhile_eq_self_iff.2 fun hne hpos =>
    hlast _ (List.getLast_mem hne) (of_decide_eq_true hpos)

/-- The text without padding is read back when the padding is restored. -/
theorem urlsafeB64decode_padB64 (data : Bytes) :
    urlsafeB64decode (padB64 (urlsafeB64 data)) = .ok data := by
  obtain ⟨body, k, hencode, hk, hbody, htext⟩ := urlsafeB64_eq data
  have hlength := length_b64encode data
  rw [hencode, List.length_append, List.length_replicate] at hlength
  have hpad : padB64 (urlsafeB64 data) =
      body.map urlsafeEncodeTranslation ++ List.replicate k '=' := by
    rw [padB64, htext, List.length_map, show (4 - body.length % 4) % 4 = k by omega]
  have hback : (body.map urlsafeEncodeTranslation).map urlsafeDecodeTranslation = body := by
    rw [List.map_map]
    exact (List.map_congr_left fun c hc => (urlsafe_spec c (hbody c hc)).2.2).trans (List.map_id _)
  rw [urlsafeB64decode, hpad, List.map_append, hback, List.map_replicate,
    show urlsafeDecodeTranslation '=' = '=' from rfl, ← hencode]
  exact b64decodeText_b64Text data

/-- It has no dot. -/
theorem dot_notMem_urlsafeB64 (data : Bytes) : '.' ∉ urlsafeB64 data := by
  obtain ⟨body, k, -, -, hbody, htext⟩ := urlsafeB64_eq data
  rw [htext]
  intro h
  obtain ⟨c, hc, heq⟩ := List.mem_map.1 h
  exact (urlsafe_spec c (hbody c hc)).2.1 heq

/-! ## Minted cookies -/

/-- The text of an integer, as `dumps` writes it. -/
theorem toList_toString_int (n : ℤ) : (toString n).toList = Json.dumpsInt n := by
  rw [Json.dumpsInt]
  cases n <;> simp [toString, Int.repr, Nat.repr]

theorem lt_ten_pow {n k m : ℕ} (hn : n < 2 ^ k + 86400) (hk : 5 ≤ k) (hm : k < m) :
    n < 10 ^ m := by
  have htwo : 2 ^ k ≤ 10 ^ k := Nat.pow_le_pow_left (by norm_num) k
  have hday : 10 ^ 5 ≤ 10 ^ k := Nat.pow_le_pow_right (by norm_num) hk
  calc n < 2 ^ k + 86400 := hn
    _ ≤ 10 ^ k + 10 ^ k := by omega
    _ ≤ 10 ^ (k + 1) := by rw [pow_succ]; omega
    _ ≤ 10 ^ m := Nat.pow_le_pow_right (by norm_num) hm

/-- The digits of an expiry are few enough for `int`. -/
theorem length_toDigits_cookieExpiry (time : ClockTime) :
    (Nat.toDigits 10 (cookieExpiry time).natAbs).length ≤ Json.maxIntDigits := by
  rw [Nat.length_toDigits_le_iff (by norm_num) (by decide)]
  have hseconds : time.seconds.num.natAbs < 2 ^ 1024 * time.seconds.den := by
    have h := time.abs_lt
    rw [← Rat.num_div_den time.seconds, abs_div, Nat.abs_cast,
      div_lt_iff₀ (Nat.cast_pos.2 time.seconds.den_pos), ← Int.cast_abs, Int.abs_eq_natAbs,
      Int.cast_natCast] at h
    rw [← Nat.cast_lt (α := ℚ), Nat.cast_mul, Nat.cast_pow, Nat.cast_ofNat]
    exact h
  have hcut : (time.seconds.num.tdiv time.seconds.den).natAbs < 2 ^ 1024 := by
    rw [Int.natAbs_tdiv]
    exact Nat.div_lt_of_lt_mul (by rwa [mul_comm])
  have hadd : (cookieExpiry time).natAbs ≤
      (time.seconds.num.tdiv time.seconds.den).natAbs + 86400 := Int.natAbs_add_le _ _
  exact lt_ten_pow (hadd.trans_lt (Nat.add_lt_add_right hcut 86400)) (by norm_num) (by decide)

/-- The expiry is read back. -/
theorem intOf_cookieExpiry (time : ClockTime) :
    intOf (toString (cookieExpiry time)).toList = .ok (cookieExpiry time) := by
  rw [intOf, toList_toString_int, intOfStr_dumpsInt (length_toDigits_cookieExpiry time)]

/-- What is read from a minted payload, whatever the signature that comes with it. -/
theorem readCookie_cookieEncoded {tag : String} {time : ClockTime} {supplied : List Char}
    {signature : Bytes} (h : urlsafeB64decode (padB64 supplied) = .ok signature) :
    readCookie (cookieEncoded tag time) supplied =
      .ok (signature, tag.toList, (toString (cookieExpiry time)).toList) := by
  have hdot : '.' ∉ (toString (cookieExpiry time)).toList := by
    rw [toList_toString_int]
    intro hmem
    simpa using Json.mem_dumpsInt hmem
  have hcut : rsplitDot (tag ++ "." ++ toString (cookieExpiry time)).toList =
      .ok (tag.toList, (toString (cookieExpiry time)).toList) := by
    rw [String.toList_append, String.toList_append, List.append_assoc, rsplitDot,
      show ".".toList = ['.'] from rfl, List.singleton_append, rsplit_append hdot]
  rw [readCookie, h, cookieEncoded, urlsafeB64decode_padB64]
  simp only [bind, Except.bind, decodeUtf8_encodeUtf8, hcut]
  rfl

variable {C : Crypto} {sessionSecret : String}

/-- A string without a dot is no cookie. -/
theorem cookieTag_of_notMem {cookie : String} (h : '.' ∉ cookie.toList) (now : ℚ) :
    cookieTag C sessionSecret (some cookie) now = .ok none :=
  if_pos (.inr h)

/-- What is made of a string with a dot, once it is cut at the last one. -/
theorem cookieTag_of_rsplit {cookie : String} {encoded supplied : List Char}
    (h : rsplit '.' cookie.toList = some (encoded, supplied)) (now : ℚ) :
    cookieTag C sessionSecret (some cookie) now =
      match readCookie encoded supplied with
      | .error _ => .ok none
      | .ok (signature, tag, expiry) =>
        if signature ≠ hmacSha256 C (encodeUtf8 sessionSecret.toList) (encodeUtf8 encoded) then
          .ok none
        else (do
          let expiry ← intOf expiry
          if (expiry : ℚ) < now then .ok none else .ok (some (.ofList tag))) := by
  have hmem : '.' ∈ cookie.toList := by
    rw [(rsplit_eq_some.1 h).1]
    simp
  have hne : cookie ≠ "" := by
    rintro rfl
    cases hmem
  simp only [cookieTag]
  rw [if_neg (not_or.2 ⟨hne, not_not.2 hmem⟩), rsplitDot, h]
  rfl

/-- The payload of a minted cookie, with its signature. -/
theorem cookieTag_cookieEncoded {cookie tag : String} {time : ClockTime} {supplied : List Char}
    (hcut : rsplit '.' cookie.toList = some (cookieEncoded tag time, supplied))
    (hsigned : urlsafeB64decode (padB64 supplied) = .ok
      (hmacSha256 C (encodeUtf8 sessionSecret.toList) (encodeUtf8 (cookieEncoded tag time))))
    (now : ℚ) : cookieTag C sessionSecret (some cookie) now =
      .ok (if (cookieExpiry time : ℚ) < now then none else some tag) := by
  rw [cookieTag_of_rsplit hcut, readCookie_cookieEncoded hsigned]
  simp only [ne_eq, not_true_eq_false, if_false, intOf_cookieExpiry, bind, Except.bind,
    String.ofList_toList]
  split_ifs <;> rfl

theorem rsplit_makeCookie (tag : String) (time : ClockTime) :
    rsplit '.' (makeCookie C sessionSecret tag time.seconds).toList =
      some (cookieEncoded tag time, urlsafeB64 (hmacSha256 C (encodeUtf8 sessionSecret.toList)
        (encodeUtf8 (cookieEncoded tag time)))) := by
  rw [toList_makeCookie, rsplit_append (dot_notMem_urlsafeB64 _)]

/-- A minted cookie is of its tag, up to its expiry. -/
theorem cookieTag_makeCookie (tag : String) (time : ClockTime) (now : ℚ) :
    cookieTag C sessionSecret (some (makeCookie C sessionSecret tag time.seconds)) now =
      .ok (if (cookieExpiry time : ℚ) < now then none else some tag) :=
  cookieTag_cookieEncoded (rsplit_makeCookie tag time) (urlsafeB64decode_padB64 _) now

/-! ## Cookies of clients -/

/-- A cookie has an HMAC value over its text only where a minted cookie has it: what is said of
    the cookies that a client can send. -/
def NotForged (C : Crypto) (sessionSecret : String) (minted : List (String × ClockTime))
    (cookie : String) : Prop :=
  ∀ encoded supplied, rsplit '.' cookie.toList = some (encoded, supplied) →
    urlsafeB64decode (padB64 supplied) =
      .ok (hmacSha256 C (encodeUtf8 sessionSecret.toList) (encodeUtf8 encoded)) →
    ∃ m ∈ minted, encoded = cookieEncoded m.1 m.2

/-- The signature is the first thing that is read. -/
theorem signature_of_readCookie {encoded supplied tag expiry : List Char} {signature : Bytes}
    (h : readCookie encoded supplied = .ok (signature, tag, expiry)) :
    urlsafeB64decode (padB64 supplied) = .ok signature := by
  obtain ⟨signature', hsignature, h⟩ := bind_eq_ok.1 h
  obtain ⟨raw, -, h⟩ := bind_eq_ok.1 h
  split at h
  · cases h
  · obtain ⟨cut, -, h⟩ := bind_eq_ok.1 h
    obtain rfl : signature' = signature := (Prod.mk.inj (Except.ok.inj h)).1
    exact hsignature

/-- Any cookie is of no tag, or has the payload of a minted one. -/
theorem spec_cookieTag {minted : List (String × ClockTime)} {cookie : String}
    (h : NotForged C sessionSecret minted cookie) (now : ℚ) :
    cookieTag C sessionSecret (some cookie) now = .ok none ∨
      ∃ tag time supplied, (tag, time) ∈ minted ∧
        rsplit '.' cookie.toList = some (cookieEncoded tag time, supplied) ∧
        cookieTag C sessionSecret (some cookie) now =
          .ok (if (cookieExpiry time : ℚ) < now then none else some tag) := by
  cases hcut : rsplit '.' cookie.toList with
  | none => exact .inl (cookieTag_of_notMem (rsplit_eq_none.1 hcut) now)
  | some cut =>
    obtain ⟨encoded, supplied⟩ := cut
    cases hread : readCookie encoded supplied with
    | error e => exact .inl (by rw [cookieTag_of_rsplit hcut, hread])
    | ok parts =>
      obtain ⟨signature, tag, expiry⟩ := parts
      have hdecode := signature_of_readCookie hread
      by_cases hsigned : signature =
          hmacSha256 C (encodeUtf8 sessionSecret.toList) (encodeUtf8 encoded)
      · subst hsigned
        obtain ⟨⟨tag, time⟩, hminted, rfl⟩ := h encoded supplied hcut hdecode
        exact .inr ⟨tag, time, supplied, hminted, rfl, cookieTag_cookieEncoded hcut hdecode now⟩
      -- The expiry is not read, whatever it is.
      · exact .inl (by rw [cookieTag_of_rsplit hcut, hread]; exact if_pos hsigned)

/-- A client can send what it was given. -/
theorem notForged_makeCookie {minted : List (String × ClockTime)} {tag : String}
    {time : ClockTime} (h : (tag, time) ∈ minted) :
    NotForged C sessionSecret minted (makeCookie C sessionSecret tag time.seconds) := by
  intro encoded supplied hcut _
  rw [rsplit_makeCookie] at hcut
  obtain ⟨rfl, -⟩ := Prod.mk.inj (Option.some.inj hcut)
  exact ⟨(tag, time), h, rfl⟩

/-- `_cookie_tag` returns the tag of a minted cookie up to its expiry, and none after it. On any
    string with no HMAC value of another text than the minted ones it does not raise, and a tag
    that it returns is that of a minted cookie with this payload, which has not expired. -/
theorem cookie_sound (C : Crypto) (sessionSecret : String) :
    (∀ (tag : String) (time now : ClockTime),
      cookieTag C sessionSecret (some (makeCookie C sessionSecret tag time.seconds)) now.seconds =
        .ok (if (cookieExpiry time : ℚ) < now.seconds then none else some tag)) ∧
    ∀ (minted : List (String × ClockTime)) (cookie : String) (now : ClockTime),
      NotForged C sessionSecret minted cookie →
        ∃ result, cookieTag C sessionSecret (some cookie) now.seconds = .ok result ∧
          ∀ tag, result = some tag → ∃ time supplied, (tag, time) ∈ minted ∧
            rsplit '.' cookie.toList = some (cookieEncoded tag time, supplied) ∧
            now.seconds ≤ cookieExpiry time := by
  refine ⟨fun tag time now => cookieTag_makeCookie tag time now.seconds,
    fun minted cookie now h => ?_⟩
  obtain hnone | ⟨tag, time, supplied, hminted, hcut, htag⟩ := spec_cookieTag h now.seconds
  · exact ⟨none, hnone, fun tag htag => by cases htag⟩
  · refine ⟨_, htag, fun tag' hresult => ?_⟩
    split_ifs at hresult with hexpiry
    obtain rfl := Option.some.inj hresult
    exact ⟨time, supplied, hminted, hcut, not_lt.1 hexpiry⟩

/-- A time of whole seconds. -/
def ClockTime.ofSeconds (n : ℕ) (h : n < 2 ^ 64) : ClockTime where
  seconds := n
  abs_lt := calc
    |(n : ℚ)| = n := Nat.abs_cast n
    _ < 2 ^ 64 := mod_cast h
    _ ≤ 2 ^ 1024 := pow_le_pow_right₀ one_le_two (by decide)

theorem cookieExpiry_ofSeconds (n : ℕ) (h : n < 2 ^ 64) :
    cookieExpiry (.ofSeconds n h) = n + 86400 := by
  simp [cookieExpiry, ClockTime.ofSeconds]

/-- A cookie for a tag with a dot is of it an hour later, and of none after a day. -/
theorem cookie_sound_dotted :
    let time := ClockTime.ofSeconds 0 (by decide)
    let cookie := makeCookie plainCrypto "secret" "a.b" time.seconds
    cookieTag plainCrypto "secret" (some cookie) 3600 = .ok (some "a.b") ∧
      cookieTag plainCrypto "secret" (some cookie) 86401 = .ok none ∧
      ∃ result, cookieTag plainCrypto "secret" (some cookie) 3600 = .ok result ∧
        ∀ tag, result = some tag → ∃ time' supplied, (tag, time') ∈ [("a.b", time)] ∧
          rsplit '.' cookie.toList = some (cookieEncoded tag time', supplied) ∧
          3600 ≤ (cookieExpiry time' : ℚ) := by
  intro time cookie
  obtain ⟨hminted, hany⟩ := cookie_sound plainCrypto "secret"
  have hexpiry : cookieExpiry time = 86400 := cookieExpiry_ofSeconds 0 (by decide)
  have hhour := hminted "a.b" time (.ofSeconds 3600 (by decide))
  have hday := hminted "a.b" time (.ofSeconds 86401 (by decide))
  rw [hexpiry] at hhour hday
  refine ⟨hhour.trans ?_, hday.trans ?_,
    hany [("a.b", time)] cookie (.ofSeconds 3600 (by decide))
      (notForged_makeCookie (List.mem_singleton_self _))⟩
  · rw [if_neg (by norm_num [ClockTime.ofSeconds])]
  · rw [if_pos (by norm_num [ClockTime.ofSeconds])]

end SecNet
