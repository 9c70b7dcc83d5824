import TptIdentity.GoCrypto
import TptIdentity.GoUrl
import TptIdentity.OidcModel

/-!
# TOTP

A code is accepted if it is the RFC 4226 value of one of three counters (`verifyCtx_iff`). The
secret is read back from its encrypted form, and the counters of the window do not overflow from
thirty seconds after the epoch on.

Nothing records the counters that were used, so a code is accepted as often as it is sent in its
window: it is accepted once exactly in the runs that present it once (`oneTime_iff`).

An enrolment returns a URI with the issuer and the account name, which `urlEscape` writes with a
rune outside ASCII as its code point. The texts can be read back from the URI exactly if they are
ASCII (`urlEscape_decodes_iff`); they never hold a byte that separates the parts of the URI
(`plain_of_mem_urlEscape`).
-/

namespace TptIdentity.Authn

open Go List UInt8 Res Option

/-- HMAC-SHA1, Argon2id with the parameters of the manager, and AES-GCM without
additional data. -/
structure TotpCrypto where
  hmacSHA1 : Bytes → Bytes → Bytes
  argon2IDKey : Bytes → Bytes → Array32
  gcmSeal : Array32 → Bytes → Bytes → Bytes
  gcmOpen : Array32 → Bytes → Bytes → Res Bytes

structure TotpCrypto.Lawful (P : TotpCrypto) : Prop where
  length_hmac : ∀ key msg, (P.hmacSHA1 key msg).length = 20
  gcm_inv : ∀ key nonce msg, nonce.length = 12 →
    P.gcmOpen key nonce (P.gcmSeal key nonce msg) = .ok msg

structure TOTPManager where
  crypto : TotpCrypto
  passphrase : Bytes
  issuer : Bytes

def indexByte (h : Bytes) (i : Nat) : Res UInt8 :=
  match h[i]? with
  | some b => .ok b
  | none => .panics "index out of range"

variable {counter : Int64} {b l s v : Bytes} {m : TOTPManager} {c : UInt8} {r : Nat}
  (P : TotpCrypto)

def generateTOTP (secret : Bytes) (counter : Int64) : Res Bytes := do
  let h := P.hmacSHA1 secret (putUint64 counter.toUInt64)
  let last ← indexByte h (h.length - 1)
  let offset := last.toNat &&& 0x0f
  let b0 ← indexByte h offset
  let b1 ← indexByte h (offset + 1)
  let b2 ← indexByte h (offset + 2)
  let b3 ← indexByte h (offset + 3)
  let code := (b0.toNat &&& 0x7f) <<< 24 ||| b1.toNat <<< 16 ||| b2.toNat <<< 8 ||| b3.toNat
  return pad 6 (code % 10 ^ 6)

def timingSafeEqual (a b : Bytes) : Bool :=
  a.length == b.length && (zipWith (· ^^^ ·) a b).foldl (· ||| ·) 0 == 0

namespace TOTPManager

def encryptSecret (m : TOTPManager) (rand : Rand) (secret : Bytes) : Res Bytes := do
  let salt ← rand.read 0 32
  let dk := m.crypto.argon2IDKey m.passphrase salt
  let nonce ← rand.read 1 12
  let ct := m.crypto.gcmSeal dk nonce secret
  return encodeHex salt ++ 58 :: (encodeHex nonce ++ 58 :: encodeHex ct)

def decryptSecret (m : TOTPManager) (encoded : Bytes) : Res Bytes :=
  match splitN 58 3 encoded with
  | [salt, nonce, ct] => do
    let salt ← (decodeHex salt).wrapErr "totp: invalid encrypted secret (salt): %w" []
    let nonce ← (decodeHex nonce).wrapErr "totp: invalid encrypted secret (nonce): %w" []
    let ct ← (decodeHex ct).wrapErr "totp: invalid encrypted secret (ciphertext): %w" []
    if nonce.length = 12 then
      m.crypto.gcmOpen (m.crypto.argon2IDKey m.passphrase salt) nonce ct
    else .panics "crypto/cipher: incorrect nonce length given to GCM"
  | _ => .err (.new "invalid encrypted secret format" [])

def verifyLoop (m : TOTPManager) (secret code : Bytes) (counter : Int64) : List Int64 → Res Unit
  | [] => .err (.new "totp: invalid code" [])
  | delta :: deltas => do
    let expected ← generateTOTP m.crypto secret (counter + delta)
    if timingSafeEqual code expected then return ()
    else verifyLoop m secret code counter deltas

/-- `stored` is the encrypted secret of the subject's credential, as the store returns it. -/
def verifyCtx (m : TOTPManager) (stored : Res Bytes) (now : Int64) (code : Bytes) : Res Unit :=
  match stored with
  | .ok encryptedSecret => do
    let secret ← (m.decryptSecret encryptedSecret).wrapErr "totp: decrypt secret: %w" []
    m.verifyLoop secret code (now / 30) [-1, 0, 1]
  | .err _ => .err (.new "totp: no credential enrolled" [])
  | .panics reason => .panics reason

end TOTPManager

theorem foldl_or_eq_zero {x : UInt8} : l.foldl (· ||| ·) x = 0 ↔ x = 0 ∧ ∀ c ∈ l, c = 0 := by
  induction l generalizing x with
  | nil => simp
  | cons c l ih => rw [foldl_cons, ih, or_eq_zero_iff, forall_mem_cons, and_assoc]

theorem timingSafeEqual_iff {a : Bytes} : timingSafeEqual a b ↔ a = b := by
  rw [timingSafeEqual, Bool.and_eq_true, beq_iff_eq, beq_iff_eq, foldl_or_eq_zero,
    eq_self_iff_true, true_and]
  induction a generalizing b with
  | nil => simp [eq_comm]
  | cons x a ih =>
    cases b with
    | nil => simp
    | cons y b =>
      rw [zipWith_cons_cons, forall_mem_cons, xor_eq_zero_iff, length_cons, length_cons,
        Nat.succ_inj, and_left_comm, ih, cons.injEq]

/-! ## The values of RFC 4226 -/

/-- The truncated value of a MAC of 20 bytes, in six digits. -/
def hotp (secret : Bytes) (counter : Nat) : Bytes :=
  let mac := P.hmacSHA1 secret (beBytes 8 counter)
  let offset := (mac.getD 19 0).toNat % 16
  pad 6 (beNat ((range 4).map fun i => mac.getD (offset + i) 0) % 2 ^ 31 % 10 ^ 6)

theorem join_bytes {x y : Nat} (n : Nat) (hy : y < 2 ^ 8) :
    x <<< (n + 8) ||| y <<< n = (x * 2 ^ 8 + y) <<< n := by
  rw [Nat.add_comm n, Nat.shiftLeft_add, ← Nat.shiftLeft_or_distrib,
    ← Nat.shiftLeft_add_eq_or_of_lt hy, Nat.shiftLeft_eq x]

theorem truncated (b0 b1 b2 b3 : UInt8) :
    (b0.toNat &&& 0x7f) <<< 24 ||| b1.toNat <<< 16 ||| b2.toNat <<< 8 ||| b3.toNat
      = beNat [b0, b1, b2, b3] % 2 ^ 31 := by
  have h1 := b1.toNat_lt
  have h2 := b2.toNat_lt
  have h3 := b3.toNat_lt
  have hlast := join_bytes (x := (b0.toNat % 2 ^ 7 * 2 ^ 8 + b1.toNat) * 2 ^ 8 + b2.toNat) 0 h3
  rw [Nat.shiftLeft_zero, Nat.shiftLeft_zero] at hlast
  rw [Nat.and_two_pow_sub_one_eq_mod _ 7, join_bytes 16 h1, join_bytes 8 h2, hlast]
  simp only [beNat, length_cons, length_nil]
  omega

theorem indexByte_eq {h : Bytes} {i : Nat} (hi : i < h.length) :
    indexByte h i = .ok (h.getD i 0) := by
  simp [indexByte, hi]

theorem generateTOTP_eq {P : TotpCrypto} (hP : P.Lawful) (secret : Bytes) (counter : Int64) :
    generateTOTP P secret counter = .ok (hotp P secret counter.toUInt64.toNat) := by
  have hlen := hP.length_hmac secret (putUint64 counter.toUInt64)
  rw [generateTOTP, hotp, ← putUint64]
  generalize P.hmacSHA1 secret (putUint64 counter.toUInt64) = mac at hlen ⊢
  have hoffset : (mac.getD 19 0).toNat % 2 ^ 4 < 16 := Nat.mod_lt _ (by decide)
  simp only [hlen, indexByte_eq (show 20 - 1 < mac.length by omega), ok_bind,
    Nat.and_two_pow_sub_one_eq_mod _ 4]
  rw [indexByte_eq (by omega), indexByte_eq (by omega), indexByte_eq (by omega),
    indexByte_eq (by omega)]
  simp only [ok_bind, truncated]
  rfl

theorem length_hotp (secret : Bytes) (c : Nat) : (hotp P secret c).length = 6 :=
  length_pad (by decide) (Nat.mod_lt _ (by decide))

theorem decryptSecret_encryptSecret (hP : m.crypto.Lawful) {rand : Rand} {secret encrypted : Bytes}
    (h : m.encryptSecret rand secret = .ok encrypted) : m.decryptSecret encrypted = .ok secret := by
  obtain ⟨salt, -, h⟩ := bind_eq_ok.mp h
  obtain ⟨nonce, hnonce, h⟩ := bind_eq_ok.mp h
  obtain rfl := ok.inj h
  have hlen : nonce.length = 12 := by
    unfold Rand.read at hnonce
    split at hnonce
    · cases hnonce
    · rw [← ok.inj hnonce, length_map, length_range]
  have hcolon : ∀ b, 58 ∉ encodeHex b :=
    fun b h => absurd (hexVal_of_mem_encodeHex h) (by decide)
  rw [TOTPManager.decryptSecret, splitN_three.mpr ⟨rfl, hcolon salt, hcolon nonce⟩]
  simp only [decodeHex_encodeHex, wrapErr_ok, ok_bind, hlen, if_true]
  exact hP.gcm_inv _ _ _ hlen

theorem verifyLoop_eq_ok (hP : m.crypto.Lawful) {secret code : Bytes} {deltas : List Int64} :
    m.verifyLoop secret code counter deltas = .ok () ↔
      ∃ delta ∈ deltas, code = hotp m.crypto secret (counter + delta).toUInt64.toNat := by
  induction deltas with
  | nil => simp [TOTPManager.verifyLoop]
  | cons delta deltas ih =>
    rw [TOTPManager.verifyLoop, generateTOTP_eq hP, ok_bind, exists_mem_cons_iff]
    split
    · next h => exact iff_of_true rfl (.inl (timingSafeEqual_iff.mp h))
    · next h => rw [ih, or_iff_right (mt timingSafeEqual_iff.mpr h)]

theorem toInt_delta : ∀ delta ∈ ([-1, 0, 1] : List Int64), -1 ≤ delta.toInt ∧ delta.toInt ≤ 1 := by
  intro delta h
  simp only [mem_cons, not_mem_nil, or_false] at h
  rcases h with rfl | rfl | rfl
  · decide
  · decide
  · decide

/-- No counter of the window overflows. -/
theorem toNat_counter {now delta : Int64} (hnow : 30 ≤ now.toInt) (hdelta : delta ∈ [-1, 0, 1]) :
    ((now / 30 + delta).toUInt64.toNat : Int) = now.toInt / 30 + delta.toInt := by
  have hd := toInt_delta delta hdelta
  have hlt := now.toInt_lt
  have hmin : now ≠ Int64.minValue := by
    rintro rfl
    revert hnow
    decide
  have hdiv : (now / 30).toInt = now.toInt / 30 := by
    rw [Int64.toInt_div_of_ne_left _ _ hmin]
    exact Int.tdiv_eq_ediv_of_nonneg (by omega)
  have hsum : (now / 30 + delta).toInt = now.toInt / 30 + delta.toInt := by
    rw [Int64.toInt_add, hdiv]
    exact Int.bmod_eq_of_le (by omega) (by omega)
  have hpos : 0 ≤ now / 30 + delta := by
    rw [Int64.le_iff_toInt_le, hsum]
    change 0 ≤ _
    omega
  rw [Int64.toNat_toUInt64_of_le hpos, ← Int64.toNat_toInt, hsum]
  omega

/-- A code is accepted exactly if it is the value of the counter of the time or of one next to it.
-/
theorem verifyCtx_iff (m : TOTPManager) (hP : m.crypto.Lawful) :
    (∀ secret counter, ∃ digits, generateTOTP m.crypto secret counter = .ok digits
      ∧ digits.length = 6 ∧ IsDigits digits)
    ∧ ∀ rand secret encrypted, m.encryptSecret rand secret = .ok encrypted →
      ∀ now : Int64, 30 ≤ now.toInt → ∀ code, m.verifyCtx (.ok encrypted) now code = .ok () ↔
        ∃ c : Nat, now.toInt / 30 - 1 ≤ c ∧ c ≤ now.toInt / 30 + 1
          ∧ code = hotp m.crypto secret c := by
  constructor
  · intro secret counter
    exact ⟨_, generateTOTP_eq hP secret counter, length_hotp _ _ _, isDigits_pad _ _⟩
  · intro rand secret encrypted henc now hnow code
    simp only [TOTPManager.verifyCtx, decryptSecret_encryptSecret hP henc, wrapErr_ok,
      ok_bind, verifyLoop_eq_ok hP]
    constructor
    · rintro ⟨delta, hdelta, rfl⟩
      have hc := toNat_counter hnow hdelta
      have hd := toInt_delta delta hdelta
      exact ⟨_, by omega, by omega, rfl⟩
    · rintro ⟨c, hlo, hhi, rfl⟩
      obtain ⟨delta, hdelta, hc⟩ : ∃ delta ∈ ([-1, 0, 1] : List Int64),
          (c : Int) = now.toInt / 30 + delta.toInt := by
        rcases (show (c : Int) = now.toInt / 30 + -1 ∨ (c : Int) = now.toInt / 30 + 0
          ∨ (c : Int) = now.toInt / 30 + 1 by omega) with h | h | h
        · exact ⟨-1, by decide, h⟩
        · exact ⟨0, by decide, h⟩
        · exact ⟨1, by decide, h⟩
      have hsame := toNat_counter hnow hdelta
      exact ⟨delta, hdelta, by rw [show c = (now / 30 + delta).toUInt64.toNat by omega]⟩

/-- Primitives that can be evaluated: the code of a counter is its value, and nothing is encrypted.
-/
def TotpCrypto.standIn : TotpCrypto where
  hmacSHA1 _ msg := (msg.drop 4 ++ replicate 20 0).take 19 ++ [0]
  argon2IDKey _ _ := default
  gcmSeal _ _ msg := msg
  gcmOpen _ _ ct := .ok ct

theorem lawful_standIn : TotpCrypto.standIn.Lawful where
  length_hmac _ msg := by
    simp only [TotpCrypto.standIn, length_append, length_take, length_replicate, length_singleton]
    omega
  gcm_inv _ _ _ _ := rfl

def Sample.manager : TOTPManager := ⟨.standIn, "passphrase", "Acme Ltd"⟩

theorem verifyCtx_standIn :
    Sample.manager.verifyCtx (Sample.manager.encryptSecret (.of fun _ _ => 0) [7]) 60
      (hotp .standIn [7] 3) = .ok () :=
  ((verifyCtx_iff Sample.manager lawful_standIn).2 (.of fun _ _ => 0) [7] _ rfl 60
    (by decide) _).mpr ⟨3, by decide, by decide, rfl⟩

/-! ## Repeated codes -/

inductive LockoutCall where
  | recordFailure (subjectDID : Bytes)
  | recordSuccess (subjectDID : Bytes)

/-- A request, with the encrypted secret that the store has. No code if the body does not decode.
-/
structure VerifyRequest where
  now : Int64
  authorization : Bytes
  code : Option Bytes
  getTOTPCredential : Bytes → Res Bytes

def verified : Oidc.Response := .json 200 (.obj [("status", .str "verified")])

section Verify

variable (m : TOTPManager) (bearer : Bytes → Res Bytes)

/-- The handler, with `SubjectFromBearer` as `bearer`. The lockout is not asked. -/
def handleTOTPVerify (r : VerifyRequest) : Res (Oidc.Response × Option LockoutCall) :=
  match bearer r.authorization with
  | .ok subjectDID =>
    if r.code.getD [] = [] then .ok (.error 400 "code required", none)
    else
      match m.verifyCtx (r.getTOTPCredential subjectDID) r.now (r.code.getD []) with
      | .ok _ => .ok (verified, some (.recordSuccess subjectDID))
      | .err _ => .ok (.error 401 "invalid code", some (.recordFailure subjectDID))
      | .panics reason => .panics reason
  | .err _ => .ok (.error 401 "unauthorized", none)
  | .panics reason => .panics reason

/-- The request of a subject with a secret holds the code of a time step of its window. -/
structure Presents (subjectDID key : Bytes) (counter : Int64) (r : VerifyRequest) : Prop where
  subject : bearer r.authorization = .ok subjectDID
  secret : (r.getTOTPCredential subjectDID >>= m.decryptSecret) = .ok key
  window : ∃ delta ∈ ([-1, 0, 1] : List Int64), counter = r.now / 30 + delta
  code : r.code.map .ok = some (generateTOTP m.crypto key counter)

def Accepts (subjectDID key : Bytes) (counter : Int64) (r : VerifyRequest) : Prop :=
  Presents m bearer subjectDID key counter r
    ∧ handleTOTPVerify m bearer r = .ok (verified, some (.recordSuccess subjectDID))

/-- The code of a time step is accepted once for a subject. -/
def OneTime (rs : List VerifyRequest) : Prop :=
  rs.Pairwise fun r r' => ∀ subjectDID key counter,
    ¬(Accepts m bearer subjectDID key counter r ∧ Accepts m bearer subjectDID key counter r')

variable {m bearer} (hP : m.crypto.Lawful)

include hP

theorem accepts_iff {subjectDID key : Bytes} {r : VerifyRequest} :
    Accepts m bearer subjectDID key counter r ↔ Presents m bearer subjectDID key counter r := by
  refine ⟨And.left, fun h => ⟨h, ?_⟩⟩
  obtain ⟨delta, hdelta, rfl⟩ := h.window
  obtain ⟨encrypted, hget, hdecrypt⟩ := bind_eq_ok.mp h.secret
  obtain ⟨code, hcode, hok⟩ := map_eq_some_iff.mp h.code
  rw [generateTOTP_eq hP, ok.injEq] at hok
  have hloop := (verifyLoop_eq_ok hP).mpr ⟨delta, hdelta, hok⟩
  have hne : code ≠ [] := by
    rw [hok, ← length_pos_iff, length_hotp]
    decide
  simp only [handleTOTPVerify, h.subject, hcode, getD_some, if_neg hne,
    TOTPManager.verifyCtx, hget, hdecrypt, wrapErr_ok, ok_bind, hloop]

/-- Each code is accepted once in a run exactly if it is presented once in its window. -/
theorem oneTime_iff (rs : List VerifyRequest) :
    OneTime m bearer rs ↔ rs.Pairwise fun r r' => ∀ subjectDID key counter,
      ¬(Presents m bearer subjectDID key counter r
        ∧ Presents m bearer subjectDID key counter r') := by
  simp only [OneTime, accepts_iff hP]

end Verify

/-- The code of the second step, one minute into 1970. -/
def Sample.request : VerifyRequest where
  now := 60
  authorization := "did:web:alice"
  code := some "000002"
  getTOTPCredential _ := .ok ":000000000000000000000000:07"

/-- The code of the next step, half a minute later. -/
def Sample.later : VerifyRequest := { Sample.request with now := 90, code := some "000003" }

theorem presents_request : Presents Sample.manager .ok "did:web:alice" [7] 2 Sample.request :=
  ⟨rfl, by decide +kernel, ⟨0, by decide, rfl⟩, by decide +kernel⟩

theorem presents_later : Presents Sample.manager .ok "did:web:alice" [7] 3 Sample.later :=
  ⟨rfl, by decide +kernel, ⟨0, by decide, rfl⟩, by decide +kernel⟩

theorem oneTime_two_steps :
    Accepts Sample.manager .ok "did:web:alice" [7] 2 Sample.request
    ∧ Accepts Sample.manager .ok "did:web:alice" [7] 3 Sample.later
    ∧ OneTime Sample.manager .ok [Sample.request, Sample.later] := by
  refine ⟨(accepts_iff lawful_standIn).mpr presents_request,
    (accepts_iff lawful_standIn).mpr presents_later,
    (oneTime_iff lawful_standIn _).mpr (pairwise_pair.mpr fun _ _ _ h => ?_)⟩
  exact absurd (h.1.code.trans h.2.code.symm) (by decide +kernel)

theorem not_oneTime_repeated : ¬OneTime Sample.manager .ok [Sample.request, Sample.request] := by
  intro h
  have haccepts := (accepts_iff lawful_standIn).mpr presents_request
  exact pairwise_pair.mp h _ _ _ ⟨haccepts, haccepts⟩

/-! ## Escaped names -/

def upperDigit (d : Nat) : UInt8 := if d < 10 then ofNat (48 + d) else ofNat (55 + d)

def upperHex : Nat → Nat → Bytes
  | 0, _ => []
  | n + 1, r => if r = 0 then [] else upperHex n (r / 16) ++ [upperDigit (r % 16)]

def upperHex02 (r : Nat) : Bytes :=
  let digits := upperHex 6 r
  replicate (2 - digits.length) 48 ++ digits

def unreserved (r : Nat) : Bool :=
  (65 ≤ r && r ≤ 90) || (97 ≤ r && r ≤ 122) || (48 ≤ r && r ≤ 57) || r == 45 || r == 95 || r == 46
    || r == 126

def escapeRune (r : Nat) : Bytes := if unreserved r then encodeRune r else 37 :: upperHex02 r

def urlEscape (s : Bytes) : Bytes := (runes s).flatMap fun r => escapeRune (r.getD runeError)

def base32Alphabet : Bytes := "ABCDEFGHIJKLMNOPQRSTUVWXYZ234567"

/-- `base32.StdEncoding` without padding. -/
def encodeBase32 (b : Bytes) : Bytes :=
  let n := (8 * b.length + 4) / 5
  let bits := beNat b * 2 ^ (5 * n - 8 * b.length)
  (range n).map fun i => base32Alphabet.getD (bits / 32 ^ (n - 1 - i) % 32) 0

structure TOTPCredential where
  subjectDID : Bytes
  encryptedSecret : Bytes
  accountName : Bytes
  createdAt : Int

/-- `secret=%s&issuer=%s&algorithm=SHA1&digits=%d&period=%d`. -/
def TOTPManager.otpauthQuery (m : TOTPManager) (secret : Bytes) : Bytes :=
  (str "secret" ++ 61 :: encodeBase32 secret) ++ 38 :: ((str "issuer" ++ 61 :: urlEscape m.issuer)
    ++ 38 :: "algorithm=SHA1&digits=6&period=30")

/-- `otpauth://totp/%s:%s?` and the query. -/
def TOTPManager.otpauthURI (m : TOTPManager) (accountName secret : Bytes) : Bytes :=
  "otpauth://totp/" ++ ((urlEscape m.issuer ++ 58 :: urlEscape accountName)
    ++ 63 :: m.otpauthQuery secret)

def TOTPManager.enrolCtx (m : TOTPManager) (env : Oidc.Env)
    (saveTOTPCredential : TOTPCredential → Res Unit) (subjectDID accountName : Bytes) :
    Res Bytes := do
  let secret ← (env.rand.read 0 20).wrapErr "totp: generate secret: %w" []
  let encrypted ← (m.encryptSecret (env.drop 1).rand secret).wrapErr "totp: encrypt secret: %w" []
  (saveTOTPCredential ⟨subjectDID, encrypted, accountName, env.clock 0⟩).wrapErr
    "totp: save credential: %w" []
  return m.otpauthURI accountName secret

def Digit (c : UInt8) : Prop := (hexVal c).isSome ∧ c ≠ 37 ∧ c ≠ 43 ∧ c.toNat < 128

theorem digit_upperDigit : ∀ d < 16, Digit (upperDigit d) := by
  unfold Digit
  decide +kernel

theorem digit_of_mem_upperHex {n : Nat} (h : c ∈ upperHex n r) : Digit c := by
  induction n generalizing r with
  | zero => cases h
  | succ n ih =>
    rw [upperHex] at h
    split at h
    · cases h
    · rcases mem_append.mp h with h | h
      · exact ih h
      · exact mem_singleton.mp h ▸ digit_upperDigit _ (Nat.mod_lt _ (by decide))

theorem digit_of_mem_upperHex02 (h : c ∈ upperHex02 r) : Digit c := by
  rcases mem_append.mp h with h | h
  · obtain rfl := eq_of_mem_replicate h
    exact digit_upperDigit 0 (by decide)
  · exact digit_of_mem_upperHex h

theorem unescapes_append {t w : Bytes} (h : Unescapes s v) (ht : Unescapes t w) :
    Unescapes (s ++ t) (v ++ w) := by
  induction h with
  | nil => exact ht
  | byte hc _ ih => exact .byte hc ih
  | escape hx hy _ ih => exact .escape hx hy ih

theorem exists_cons_cons (h : 2 ≤ l.length) : ∃ x y t, l = x :: y :: t := by
  rcases l with _ | ⟨x, _ | ⟨y, t⟩⟩
  · cases h
  · simp at h
  · exact ⟨x, y, t, rfl⟩

theorem unescapes_ascii : ∀ r < 128, Unescapes (escapeRune r) [ofNat r] := by
  simp only [← queryUnescape_eq_some]
  decide +kernel

theorem unescapes_high (hr : 128 ≤ r) : ∃ x t, Unescapes (escapeRune r) (x :: t) ∧ IsAscii t := by
  have hdigit : ∀ c ∈ upperHex02 r, Digit c := fun _ => digit_of_mem_upperHex02
  have hlen : 2 ≤ (upperHex02 r).length := by
    simp only [upperHex02, length_append, length_replicate]
    omega
  have hres : unreserved r = false := by
    simp only [unreserved, Bool.or_eq_false_iff, Bool.and_eq_false_iff, decide_eq_false_iff_not,
      beq_eq_false_iff_ne]
    omega
  rw [escapeRune, hres, if_neg (by decide)]
  obtain ⟨x, y, t, heq⟩ := exists_cons_cons hlen
  rw [heq, forall_mem_cons, forall_mem_cons] at hdigit
  obtain ⟨m, hm⟩ := isSome_iff_exists.mp hdigit.1.1
  obtain ⟨n, hn⟩ := isSome_iff_exists.mp hdigit.2.1.1
  rw [heq]
  exact ⟨_, t, .escape hm hn (.self fun c hc => ⟨(hdigit.2.2 c hc).2.1, (hdigit.2.2 c hc).2.2.1⟩),
    fun c hc => (hdigit.2.2 c hc).2.2.2⟩

theorem high_encodeRune (hr : 128 ≤ r) :
    2 ≤ (encodeRune r).length ∧ ∀ c ∈ encodeRune r, 128 ≤ c.toNat := by
  obtain ⟨a, t, heq, ha, ht⟩ := encodeRune_eq_cons r
  constructor
  · unfold encodeRune
    split_ifs
    · omega
    · simp
    · simp
    · simp
    · simp
  · rw [heq, forall_mem_cons]
    refine ⟨by omega, ?_⟩
    intro c hc
    have hcont := ht c hc
    rw [isCont, Bool.and_eq_true, decide_eq_true_eq] at hcont
    exact hcont.1

theorem exists_unescapes (rs : List Nat) : ∃ v, Unescapes (rs.flatMap escapeRune) v
    ∧ ∀ p : Bytes, (∀ c ∈ p, 128 ≤ c.toNat) → v = p ++ rs.flatMap encodeRune →
      p = [] ∧ ∀ r ∈ rs, r < 128 := by
  induction rs with
  | nil => exact ⟨[], .nil, fun p _ h => ⟨(append_eq_nil_iff.mp h.symm).1, by simp⟩⟩
  | cons r rs ih =>
    obtain ⟨v, hv, hall⟩ := ih
    by_cases hr : r < 128
    · refine ⟨_, unescapes_append (unescapes_ascii r hr) hv, ?_⟩
      intro p hp h
      rw [flatMap_cons, encodeRune, if_pos hr] at h
      cases p with
      | nil =>
        refine ⟨rfl, forall_mem_cons.mpr ⟨hr, (hall [] (by simp) ?_).2⟩⟩
        exact (cons.inj h).2
      | cons c p =>
        have hc := hp c mem_cons_self
        rw [← (cons.inj h).1, toNat_ofNat'] at hc
        omega
    · obtain ⟨x, t, hx, ht⟩ := unescapes_high (not_lt.mp hr)
      obtain ⟨hlen, hhigh⟩ := high_encodeRune (not_lt.mp hr)
      refine ⟨_, unescapes_append hx hv, ?_⟩
      intro p hp h
      exfalso
      have hw := forall_mem_append.mpr ⟨hp, hhigh⟩
      have htwo : 2 ≤ (p ++ encodeRune r).length := by
        rw [length_append]
        omega
      obtain ⟨y, z, q, heq⟩ := exists_cons_cons htwo
      rw [flatMap_cons, ← append_assoc, heq] at h
      rw [heq, forall_mem_cons] at hw
      have htail := (cons.inj h).2
      cases t with
      | nil => cases (hall (z :: q) hw.2 htail).1
      | cons c t =>
        have hc := ht c mem_cons_self
        rw [(cons.inj htail).1] at hc
        have hz := hw.2 z mem_cons_self
        omega

theorem unescapes_of_ascii {rs : List Nat} (h : ∀ r ∈ rs, r < 128) :
    Unescapes (rs.flatMap escapeRune) (rs.flatMap encodeRune) := by
  induction rs with
  | nil => exact .nil
  | cons r rs ih =>
    obtain ⟨hr, hrs⟩ := forall_mem_cons.mp h
    rw [flatMap_cons, flatMap_cons, encodeRune, if_pos hr]
    exact unescapes_append (unescapes_ascii r hr) (ih hrs)

theorem queryUnescape_urlEscape (hs : validUtf8 s) :
    queryUnescape (urlEscape s) = some s ↔ IsAscii s := by
  obtain ⟨rs, htext, hescape⟩ :
      ∃ rs : List Nat, rs.flatMap encodeRune = s ∧ urlEscape s = rs.flatMap escapeRune := by
    refine ⟨(runes s).map (·.getD runeError), ?_, ?_⟩
    · rw [flatMap_map]
      exact coerce_eq_self hs
    · rw [flatMap_map]
      rfl
  rw [hescape]
  constructor
  · intro h
    obtain ⟨v, hv, hall⟩ := exists_unescapes rs
    rw [queryUnescape_eq_some.mpr hv, ← htext] at h
    have hlow := (hall [] (by simp) (some.inj h)).2
    intro c hc
    rw [← htext] at hc
    obtain ⟨r, hr, hc⟩ := mem_flatMap.mp hc
    rw [encodeRune, if_pos (hlow r hr), mem_singleton] at hc
    have hlt := hlow r hr
    rw [hc, toNat_ofNat']
    omega
  · intro h
    have hlow : ∀ r ∈ rs, r < 128 := by
      intro r hr
      by_contra hge
      obtain ⟨c, hc⟩ := exists_mem_of_ne_nil _ (encodeRune_ne_nil r)
      have hhigh := (high_encodeRune (not_lt.mp hge)).2 c hc
      have hlt := h c (htext ▸ mem_flatMap_of_mem hr hc)
      omega
    exact queryUnescape_eq_some.mpr (htext ▸ unescapes_of_ascii hlow)

/-! ## The parts of an enrolment URI -/

/-- A byte that no part of a URI is separated with. -/
def Plain (c : UInt8) : Prop := c = 37 ∨ unreserved c.toNat
deriving Decidable

theorem plain_of_hexVal : ∀ c, (hexVal c).isSome → Plain c := forall_byte (by decide +kernel)

theorem plain_of_mem_urlEscape (h : c ∈ urlEscape s) : Plain c := by
  obtain ⟨r, -, hc⟩ := mem_flatMap.mp h
  unfold escapeRune at hc
  generalize r.getD runeError = r at hc
  split at hc
  · next hres =>
    have hlow : r < 128 := by
      simp only [unreserved, Bool.or_eq_true, Bool.and_eq_true, decide_eq_true_eq, beq_iff_eq]
        at hres
      omega
    rw [encodeRune, if_pos hlow, mem_singleton] at hc
    rw [Plain, hc, toNat_ofNat_of_lt' (hlow.trans (by decide))]
    exact .inr hres
  · rcases mem_cons.mp hc with rfl | hc
    · exact .inl rfl
    · exact plain_of_hexVal c (digit_of_mem_upperHex02 hc).1

theorem ne_of_mem_urlEscape (h : c ∈ urlEscape s) : ∀ sep ∈ str "&:;=?", c ≠ sep := by
  rintro sep hsep rfl
  have hno : ∀ c ∈ str "&:;=?", ¬Plain c := by decide +kernel
  exact hno c hsep (plain_of_mem_urlEscape h)

theorem unreserved_of_mem_encodeBase32 (h : c ∈ encodeBase32 b) : unreserved c.toNat := by
  obtain ⟨i, -, rfl⟩ := mem_map.mp h
  have hall : ∀ d < 32, unreserved (base32Alphabet.getD d 0).toNat := by decide +kernel
  exact hall _ (Nat.mod_lt _ (by decide))

/-- What stands before and after the colon in the label of a URI. -/
def label (uri : Bytes) : Option (Bytes × Bytes) :=
  cut 58 ((uri.drop (str "otpauth://totp/").length).takeWhile (· ≠ 63))

/-- The label and the issuer parameter of a URI decode to the issuer and the account name. -/
structure Reads (uri issuer accountName : Bytes) : Prop where
  label : (label uri).map (Prod.map queryUnescape queryUnescape)
    = some (some issuer, some accountName)
  issuer : (rawQuery uri).map (queryValues · "issuer") = some [issuer]

section URI

variable (m : TOTPManager) (accountName secret : Bytes)

/-- The query starts at the first question mark. -/
theorem ne_of_mem_path (h : c ∈ urlEscape m.issuer ++ 58 :: urlEscape accountName) :
    decide (c ≠ 63) = true := by
  simp only [mem_append, mem_cons] at h
  refine decide_eq_true ?_
  rcases h with hc | rfl | hc
  · exact ne_of_mem_urlEscape hc 63 (by decide)
  · decide
  · exact ne_of_mem_urlEscape hc 63 (by decide)

theorem label_otpauthURI :
    label (m.otpauthURI accountName secret) = some (urlEscape m.issuer, urlEscape accountName) := by
  rw [label, TOTPManager.otpauthURI, drop_left,
    takeWhile_append_of_pos fun _ => ne_of_mem_path m accountName,
    takeWhile_cons_of_neg (by decide), append_nil,
    cut_append _ fun h => ne_of_mem_urlEscape h 58 (by decide) rfl]

theorem written_of_mem_otpauthURI (h : c ∈ m.otpauthURI accountName secret) :
    Plain c ∨ c ∈ str "/:?&=" := by
  have htexts : ∀ c ∈ "otpauth://totp/" ++ "secret" ++ "issuer"
      ++ str "algorithm=SHA1&digits=6&period=30" ++ str "/:?&=", Plain c ∨ c ∈ str "/:?&=" := by
    decide +kernel
  have hseps : str "/:?&=" = [47, 58, 63, 38, 61] := by decide
  by_cases htext : c ∈ "otpauth://totp/" ++ "secret" ++ "issuer"
      ++ str "algorithm=SHA1&digits=6&period=30" ++ str "/:?&="
  · exact htexts c htext
  · have hpart : c ∈ urlEscape m.issuer ∨ c ∈ urlEscape accountName ∨ c ∈ encodeBase32 secret := by
      simp only [TOTPManager.otpauthURI, TOTPManager.otpauthQuery, mem_append, mem_cons] at h
      simp only [mem_append, hseps, mem_cons, not_or] at htext
      grind
    rcases hpart with hc | hc | hc
    · exact .inl (plain_of_mem_urlEscape hc)
    · exact .inl (plain_of_mem_urlEscape hc)
    · exact .inl (.inr (unreserved_of_mem_encodeBase32 hc))

theorem rawQuery_otpauthURI :
    rawQuery (m.otpauthURI accountName secret) = some (m.otpauthQuery secret) := by
  have hwritten : ∀ c, Plain c ∨ c ∈ str "/:?&=" → c ≠ 35 ∧ isCtl c = false :=
    forall_byte (by decide +kernel)
  have huri : ∀ c ∈ m.otpauthURI accountName secret, c ≠ 35 ∧ isCtl c = false :=
    fun c hc => hwritten c (written_of_mem_otpauthURI m accountName secret hc)
  have hscheme : ∀ c ∈ str "otpauth://totp/", decide (c ≠ 63) = true := by decide +kernel
  have hpath : ∀ c ∈ "otpauth://totp/" ++ (urlEscape m.issuer ++ 58 :: urlEscape accountName),
      decide (c ≠ 63) = true :=
    fun c hc => (mem_append.mp hc).elim (hscheme c) (ne_of_mem_path m accountName)
  have hwhole : (m.otpauthURI accountName secret).takeWhile (· ≠ 35)
      = m.otpauthURI accountName secret :=
    takeWhile_eq_self_iff.mpr fun c hc => decide_eq_true (huri c hc).1
  rw [rawQuery, hwhole, any_eq_false.mpr fun c hc => by simp [(huri c hc).2],
    TOTPManager.otpauthURI, ← append_assoc, dropWhile_append_of_pos hpath,
    dropWhile_cons_of_neg (by decide)]
  rfl

theorem queryValues_otpauthQuery (hv : Unescapes (urlEscape m.issuer) v) :
    queryValues (m.otpauthQuery secret) "issuer" = [v] := by
  have hsecret : parseQuery ("secret" ++ 61 :: encodeBase32 secret)
      = [(str "secret", encodeBase32 secret)] := by
    refine parseQuery_plain (by decide) (by decide +kernel) fun c hc => ?_
    have hplain := unreserved_of_mem_encodeBase32 hc
    refine ⟨?_, ?_, ?_, ?_⟩ <;> rintro rfl <;> cases hplain
  have hissuer : parseQuery (str "issuer" ++ 61 :: urlEscape m.issuer) = [(str "issuer", v)] :=
    parseQuery_value (by decide) (by decide +kernel) (fun c hc =>
      ⟨ne_of_mem_urlEscape hc 38 (by decide), ne_of_mem_urlEscape hc 59 (by decide)⟩) hv
  rw [queryValues, TOTPManager.otpauthQuery, parseQuery_append, parseQuery_append, hsecret, hissuer,
    filterMap_append, filterMap_append]
  have hrest : (parseQuery "algorithm=SHA1&digits=6&period=30").filterMap
      (fun kv => if kv.1 = str "issuer" then some kv.2 else none) = [] := by
    decide +kernel
  rw [hrest]
  rfl

/-- The texts of the URI can be read back exactly if they are ASCII. -/
theorem reads_otpauthURI (hissuer : validUtf8 m.issuer) (haccount : validUtf8 accountName) :
    Reads (m.otpauthURI accountName secret) m.issuer accountName
      ↔ IsAscii m.issuer ∧ IsAscii accountName := by
  rw [← queryUnescape_urlEscape hissuer, ← queryUnescape_urlEscape haccount]
  have hlabel : ((label (m.otpauthURI accountName secret)).map
      (Prod.map queryUnescape queryUnescape) = some (some m.issuer, some accountName)
      ↔ queryUnescape (urlEscape m.issuer) = some m.issuer
        ∧ queryUnescape (urlEscape accountName) = some accountName) := by
    rw [label_otpauthURI, map_some, some.injEq, Prod.map_apply, Prod.mk.injEq]
  refine ⟨fun h => hlabel.mp h.label, fun h => ⟨hlabel.mpr h, ?_⟩⟩
  rw [rawQuery_otpauthURI, map_some,
    queryValues_otpauthQuery m secret (queryUnescape_eq_some.mp h.1)]

end URI

/-- A text decodes to itself exactly if it is ASCII, and so do the account name and the issuer that
an enrolment URI carries. -/
theorem urlEscape_decodes_iff {s : Bytes} (hs : validUtf8 s) :
    (queryUnescape (urlEscape s) = some s ↔ IsAscii s)
    ∧ ∀ (m : TOTPManager) (env : Oidc.Env) (save : TOTPCredential → Res Unit)
        (subjectDID uri : Bytes), m.enrolCtx env save subjectDID s = .ok uri → validUtf8 m.issuer →
      (Reads uri m.issuer s ↔ IsAscii m.issuer ∧ IsAscii s) := by
  refine ⟨queryUnescape_urlEscape hs, ?_⟩
  intro m env save subjectDID uri h hissuer
  obtain ⟨secret, -, h⟩ := bind_eq_ok.mp h
  obtain ⟨encrypted, -, h⟩ := bind_eq_ok.mp h
  obtain ⟨_, -, h⟩ := bind_eq_ok.mp h
  obtain rfl := ok.inj h
  exact reads_otpauthURI m s secret hissuer hs

def Sample.env : Oidc.Env := ⟨.of fun _ _ => 0, fun _ => 60⟩

def Sample.enrolled (accountName : Bytes) : Bytes :=
  Sample.manager.otpauthURI accountName (replicate 20 0)

theorem enrolCtx_sample (accountName : Bytes) :
    Sample.manager.enrolCtx Sample.env (fun _ => .ok ()) "did:web:alice" accountName
      = .ok (Sample.enrolled accountName) := rfl

theorem urlEscape_decodes_space :
    queryUnescape (urlEscape "Al Ice") = some (str "Al Ice")
    ∧ Reads (Sample.enrolled "Al Ice") "Acme Ltd" "Al Ice" := by
  have hiff := urlEscape_decodes_iff (s := "Al Ice") (by decide +kernel)
  refine ⟨hiff.1.mpr (by decide +kernel), ?_⟩
  exact (hiff.2 Sample.manager Sample.env _ _ _ (enrolCtx_sample _) (by decide +kernel)).mpr
    ⟨by decide +kernel, by decide +kernel⟩

/-- The name `é` comes back as the byte `E9`, which is not UTF-8. -/
theorem urlEscape_accent :
    validUtf8 "é" ∧ queryUnescape (urlEscape "é") ≠ some (str "é")
    ∧ (label (Sample.enrolled "é")).map (fun l => queryUnescape l.2)
      = some (some [0xE9]) := by
  decide +kernel

end TptIdentity.Authn
