import TptIdentity.GoNet

/-!
# Package did: fetching the document of a did:web

Two guards stand before the fetch of a `did:web`: `checkAllowlist` compares the domain of the
DID, and `ssrfDialer` refuses hosts with a private address.
-/

namespace TptIdentity.Did

open Go List Res

/-! ## The URL and the allowlist -/

def allowlistDomain (did : Bytes) : Bytes :=
  (splitN 58 2 (trimPrefix did "did:web:")).headD []

def checkAllowlist (allowedDomains : List Bytes) (did : Bytes) : Res Unit :=
  let domain := allowlistDomain did
  if allowedDomains.any fun allowed =>
      decide (domain = allowed) || ("." ++ allowed).isSuffixOf domain then .ok ()
  else .err (.new "did:web: domain %q not in allowlist" [domain])

def didWebURL (did : Bytes) : Res Bytes :=
  let rest := trimPrefix did "did:web:"
  if rest = did then .err (.new "not a did:web DID: %s" [did])
  else
    match rest.splitOn 58 with
    | [] => .panics "index out of range"
    | [domain] => .ok ("https://" ++ domain ++ "/.well-known/did.json")
    | domain :: path =>
      .ok ("https://" ++ domain ++ "/" ++ [47].intercalate path ++ "/did.json")

def HostAllowed (allowedDomains : List Bytes) (host : Bytes) : Prop :=
  ∃ allowed ∈ allowedDomains, host = allowed ∨ ∃ sub, host = sub ++ ("." ++ allowed)

variable {did host addr port : Bytes} {ip : IP} {dns : Nat → Dns} {addrs : List IPAddr}

theorem checkAllowlist_eq_ok {allowedDomains : List Bytes} :
    checkAllowlist allowedDomains did = .ok () ↔
      HostAllowed allowedDomains (allowlistDomain did) := by
  have hany : (allowedDomains.any fun allowed => decide (allowlistDomain did = allowed)
      || ("." ++ allowed).isSuffixOf (allowlistDomain did)) = true ↔
      HostAllowed allowedDomains (allowlistDomain did) := by
    simp only [any_eq_true, Bool.or_eq_true, decide_eq_true_eq, isSuffixOf_iff_suffix, HostAllowed]
    refine exists_congr fun allowed => and_congr_right fun _ => or_congr_right ?_
    exact exists_congr fun sub => eq_comm
  rw [← hany, checkAllowlist]
  split
  · next h => exact iff_of_true rfl h
  · next h => exact iff_of_false (err_ne_ok _ _) h

theorem didWebURL_eq_ok {url : Bytes} (h : didWebURL did = .ok url) :
    ∃ tail, url = str "https://" ++ (allowlistDomain did ++ 47 :: tail)
      ∧ 58 ∉ allowlistDomain did := by
  rw [didWebURL] at h
  obtain ⟨-, h⟩ := ite_err_eq_ok.mp h
  generalize hrest : trimPrefix did (str "did:web:") = rest at h
  by_cases hcolon : 58 ∈ rest
  · obtain ⟨domain, path, rfl, hdomain⟩ := eq_append_cons_of_mem hcolon
    have hd : allowlistDomain did = domain := by
      rw [allowlistDomain, hrest, splitN_cut 0 path hdomain]
      rfl
    rw [splitOn_append_cons_self_of_not_mem hdomain] at h
    obtain ⟨p, ps, hp⟩ := exists_cons_of_ne_nil (splitOn_ne_nil 58 path)
    rw [hp] at h
    refine ⟨[47].intercalate (p :: ps) ++ str "/did.json", ?_, hd ▸ hdomain⟩
    rw [hd, ← ok.inj h]
    simp [show str "/" = [47] from rfl]
  · have hd : allowlistDomain did = rest := by
      have hcut : cut 58 rest = none := by
        cases hc : cut 58 rest with
        | none => rfl
        | some p =>
          obtain ⟨hrest, -⟩ := cut_eq_some.mp hc
          exact absurd (hrest ▸ by simp) hcolon
      rw [allowlistDomain, hrest, splitN, hcut]
      rfl
    rw [splitOn_eq_singleton hcolon] at h
    refine ⟨str ".well-known/did.json", ?_, hd ▸ hcolon⟩
    rw [hd, ← ok.inj h, append_assoc]
    rfl
theorem exists_didWebURL (h : hasPrefix did "did:web:" = true) :
    ∃ url, didWebURL did = .ok url := by
  have hrest : trimPrefix did "did:web:" ≠ did := by
    obtain ⟨rest, rfl⟩ := isPrefixOf_iff_prefix.mp h
    rw [trimPrefix_append]
    intro heq
    have hlen := congrArg length heq
    rw [length_append, show (str "did:web:").length = 8 by decide] at hlen
    omega
  rw [didWebURL, if_neg hrest]
  cases hparts : (trimPrefix did "did:web:").splitOn 58 with
  | nil => exact absurd hparts (splitOn_ne_nil 58 _)
  | cons domain path =>
    cases path with
    | nil => exact ⟨_, rfl⟩
    | cons p ps => exact ⟨_, rfl⟩

theorem hasPrefix_of_didWebURL {url : Bytes} (h : didWebURL did = .ok url) :
    hasPrefix did "did:web:" = true := by
  obtain ⟨hrest, -⟩ := ite_err_eq_ok.mp h
  by_contra hpre
  exact hrest (if_neg hpre)

theorem hostAllowed_singleton {domain : Bytes} (hwithin : host <:+: domain) :
    HostAllowed [domain] host ↔ host = domain := by
  constructor
  · rintro ⟨allowed, hmem, h⟩
    obtain rfl := mem_singleton.mp hmem
    rcases h with h | ⟨sub, rfl⟩
    · exact h
    · have hlen := hwithin.length_le
      simp only [length_append, show (str ".").length = 1 from rfl] at hlen
      omega
  · rintro rfl
    exact ⟨host, mem_singleton_self _, .inl rfl⟩

/-- The allowlist holds exactly if the domain part of the DID has none of `/`, `?`, `#` and `@`. -/
theorem allowlist_iff (did : Bytes) :
    (∀ allowedDomains, allowedDomains ≠ [] → ∀ url, didWebURL did = .ok url →
      checkAllowlist allowedDomains did = .ok () → HostAllowed allowedDomains (urlHost url))
      ↔ (hasPrefix did "did:web:" = true →
        ∀ c ∈ allowlistDomain did, c ≠ 47 ∧ c ≠ 63 ∧ c ≠ 35 ∧ c ≠ 64) := by
  constructor
  · intro h hpre
    obtain ⟨url, hurl⟩ := exists_didWebURL hpre
    obtain ⟨tail, rfl, hcolon⟩ := didWebURL_eq_ok hurl
    have hallowed := h [allowlistDomain did] (by simp) _ hurl
      (checkAllowlist_eq_ok.mpr ⟨_, mem_singleton_self _, .inl rfl⟩)
    rw [urlHost_https tail hcolon, hostAllowed_singleton (hostPort_within _)] at hallowed
    exact hostPort_eq_self_iff.mp hallowed
  · intro h allowedDomains _ url hurl hcheck
    obtain ⟨tail, rfl, hcolon⟩ := didWebURL_eq_ok hurl
    rw [urlHost_https tail hcolon, hostPort_eq_self_iff.mpr (h (hasPrefix_of_didWebURL hurl))]
    exact checkAllowlist_eq_ok.mp hcheck

theorem allowlist_evil :
    checkAllowlist ["trusted.example"] "did:web:evil.com/.trusted.example" = .ok ()
      ∧ didWebURL "did:web:evil.com/.trusted.example"
        = .ok "https://evil.com/.trusted.example/.well-known/did.json"
      ∧ urlHost "https://evil.com/.trusted.example/.well-known/did.json" = "evil.com"
      ∧ ¬ HostAllowed ["trusted.example"] "evil.com" := by
  refine ⟨by decide +kernel, by decide +kernel, by decide +kernel, ?_⟩
  rintro ⟨allowed, hmem, h⟩
  obtain rfl := mem_singleton.mp hmem
  rcases h with h | ⟨sub, h⟩
  · exact absurd h (by decide +kernel)
  · exact absurd (congrArg length h) (by
      rw [length_append, show (str "evil.com").length = 8 by decide +kernel,
        show (str "." ++ str "trusted.example").length = 16 by decide +kernel]
      omega)

/-! ## The dialer -/

def privateRanges : List (IP × Nat) :=
  [([10, 0, 0, 0], 8), ([172, 16, 0, 0], 12), ([192, 168, 0, 0], 16), ([127, 0, 0, 0], 8),
    (ip6Loopback, 128), (ip6 [0xfc], 7), ([169, 254, 0, 0], 16), (ip6 [0xfe, 0x80], 10),
    ([100, 64, 0, 0], 10), ([198, 18, 0, 0], 15), ([203, 0, 113, 0], 24), ([0, 0, 0, 0], 8)]

def isPrivateIP (ip : IP) : Bool :=
  isLoopback ip || isLinkLocalUnicast ip || isLinkLocalMulticast ip
    || privateRanges.any fun block => blockContains block ip

/-- The addresses it connects to. The DNS may answer the guard and the dialer differently. -/
def ssrfDialer (lookupPort : Bytes → Res Nat) (dns : Nat → Dns) (addr : Bytes) :
    Res (List IPAddr) := do
  let (host, _) ← (splitHostPort addr).wrapErr "did:web ssrf: parse addr: %w" []
  let ips ← (lookupHost (dns 0) host).wrapErr "did:web ssrf: resolve host: %w" []
  match ips.find? fun ipStr => ((parseIP ipStr).map isPrivateIP).getD false with
  | some ipStr =>
    .err (.new "did:web ssrf: %s resolves to private/loopback address %s" [host, ipStr])
  | none => dialAddrs lookupPort (dns 1) addr

def isForbidden (ip : IP) : Bool :=
  isLoopback ip || isUnspecified ip || isLinkLocalUnicast ip || isLinkLocalMulticast ip
    || isPrivate ip

theorem isPrivateIP_of_mem {block : IP × Nat} (hmem : block ∈ privateRanges)
    (h : blockContains block ip) : isPrivateIP ip := by
  rw [isPrivateIP, Bool.or_eq_true]
  exact .inr (any_eq_true.mpr ⟨block, hmem, h⟩)

theorem isPrivateIP_of_isPrivate (h : isPrivate ip) : isPrivateIP ip := by
  rw [isPrivate] at h
  cases h4 : to4 ip with
  | some ip4 =>
    obtain ⟨a, b, c, d, rfl⟩ := to4_eq_some h4
    simp only [h4, getD_cons_zero, getD_cons_succ, Bool.or_eq_true, Bool.and_eq_true,
      beq_iff_eq, or_assoc] at h
    rcases h with rfl | ⟨rfl, hb⟩ | ⟨rfl, rfl⟩
    · refine isPrivateIP_of_mem (.head _) (blockContains_of_bits (by rw [h4]; rfl) fun i hi => ?_)
      rw [h4]
      interval_cases i <;> rfl
    · refine isPrivateIP_of_mem (.tail _ (.head _))
        (blockContains_of_bits (by rw [h4]; rfl) fun i hi => ?_)
      rw [h4]
      interval_cases i <;> first | rfl | exact testBit_of_and_eq hb (by decide)
    · refine isPrivateIP_of_mem (.tail _ (.tail _ (.head _)))
        (blockContains_of_bits (by rw [h4]; rfl) fun i hi => ?_)
      rw [h4]
      interval_cases i <;> rfl
  | none =>
    simp only [h4, Bool.and_eq_true, beq_iff_eq] at h
    refine isPrivateIP_of_mem (show (ip6 [0xfc], 7) ∈ privateRanges by simp [privateRanges])
      (blockContains_of_bits (by rw [h4]; exact h.1) fun i hi => ?_)
    rw [h4]
    interval_cases i <;> exact testBit_of_and_eq h.2 (by decide)

theorem isPrivateIP_of_isForbidden (h : isForbidden ip) (hip : ip ≠ ip6Unspecified) :
    isPrivateIP ip := by
  simp only [isForbidden, Bool.or_eq_true] at h
  rcases h with (((h | h) | h) | h) | h
  · simp [isPrivateIP, h]
  · rw [isUnspecified] at h
    cases h4 : to4 ip with
    | none => exact absurd (beq_iff_eq.mp (by simpa only [h4] using h)) hip
    | some ip4 =>
      have hzero : ip4 = [0, 0, 0, 0] := beq_iff_eq.mp (by simpa only [h4] using h)
      refine isPrivateIP_of_mem (show ([0, 0, 0, 0], 8) ∈ privateRanges by simp [privateRanges])
        (blockContains_of_bits ?_ fun i _ => ?_)
      · rw [h4, hzero]
        rfl
      · rw [h4, hzero]
        rfl
  · simp [isPrivateIP, h]
  · simp [isPrivateIP, h]
  · exact isPrivateIP_of_isPrivate h

theorem isPrivateIP_unspecified : isPrivateIP ip6Unspecified = false := by decide

theorem isForbidden_unspecified : isForbidden ip6Unspecified := by decide
variable {lookupPort : Bytes → Res Nat}

theorem ssrfDialer_eq_ok :
    ssrfDialer lookupPort dns addr = .ok addrs ↔
      ∃ host port ips, splitHostPort addr = .ok (host, port) ∧ lookupHost (dns 0) host = .ok ips
        ∧ (∀ ipStr ∈ ips, ∀ ip, parseIP ipStr = some ip → isPrivateIP ip = false)
        ∧ dialAddrs lookupPort (dns 1) addr = .ok addrs := by
  have hfind (ips : List Bytes) :
      (ips.find? fun ipStr => ((parseIP ipStr).map isPrivateIP).getD false) = none
        ↔ ∀ ipStr ∈ ips, ∀ ip, parseIP ipStr = some ip → isPrivateIP ip = false := by
    rw [find?_eq_none]
    refine forall₂_congr fun ipStr _ => ?_
    cases parseIP ipStr with
    | none => simp
    | some ip => simp
  rw [ssrfDialer, bind_eq_ok]
  constructor
  · rintro ⟨⟨host, port⟩, hsplit, h⟩
    obtain ⟨ips, hips, h⟩ := bind_eq_ok.mp h
    cases hf : ips.find? fun ipStr => ((parseIP ipStr).map isPrivateIP).getD false with
    | none =>
      refine ⟨host, port, ips, wrapErr_eq_ok.mp hsplit, wrapErr_eq_ok.mp hips,
        (hfind ips).mp hf, ?_⟩
      simpa only [hf] using h
    | some ipStr =>
      simp only [hf] at h
      exact absurd h (err_ne_ok _ _)
  · rintro ⟨host, port, ips, hsplit, hips, hall, hdial⟩
    refine ⟨(host, port), wrapErr_eq_ok.mpr hsplit, ?_⟩
    refine bind_eq_ok.mpr ⟨ips, wrapErr_eq_ok.mpr hips, ?_⟩
    simpa only [(hfind ips).mpr hall] using hdial

theorem ssrfDialer_literal {a : IPAddr} (hsplit : splitHostPort addr = .ok (host, port))
    (hne : host ≠ []) (hport : ∃ n, lookupPort port = .ok n) (ha : parseAddr host = some a) :
    ssrfDialer lookupPort dns addr = .ok addrs ↔ (a.zone = [] → isPrivateIP a.ip = false)
      ∧ addrs = if a.ip = ip6Unspecified then [a, ⟨mapped4 [0, 0, 0, 0], []⟩] else [a] := by
  have hparse : parseIP host = if a.zone = [] then some a.ip else none := by
    rw [parseIP, ha]
    rfl
  have hguard : (∀ ipStr ∈ [host], ∀ ip, parseIP ipStr = some ip → isPrivateIP ip = false)
      ↔ (a.zone = [] → isPrivateIP a.ip = false) := by
    simp [hparse]
  have hdial : dialAddrs lookupPort (dns 1) addr = .ok addrs
      ↔ addrs = if a.ip = ip6Unspecified then [a, ⟨mapped4 [0, 0, 0, 0], []⟩] else [a] := by
    rw [dialAddrs_eq_ok hsplit hne, lookupIPAddr_of_parseAddr ha]
    simp [hport]
  rw [ssrfDialer_eq_ok, ← hguard, ← hdial]
  constructor
  · rintro ⟨host', port', ips, hsplit', hips, hall, h⟩
    obtain ⟨rfl, rfl⟩ := Prod.mk.inj (ok.inj (hsplit.symm.trans hsplit'))
    obtain rfl := ok.inj ((lookupHost_of_parseAddr hne ha).symm.trans hips)
    exact ⟨hall, h⟩
  · rintro ⟨hall, h⟩
    exact ⟨host, port, [host], hsplit, lookupHost_of_parseAddr hne ha, hall, h⟩

def answering (text : String) (ip : IP) : Dns :=
  ⟨fun _ => .ok [str text], fun _ => .ok [⟨ip, []⟩]⟩

def rebinding (n : Nat) : Dns :=
  if n = 0 then answering "93.184.216.34" (mapped4 [93, 184, 216, 34])
  else answering "127.0.0.1" (mapped4 [127, 0, 0, 1])

theorem ssrfDialer_rebinding (hsplit : splitHostPort addr = .ok (host, port)) (hne : host ≠ [])
    (hport : ∃ n, lookupPort port = .ok n) (ha : parseAddr host = none) :
    ssrfDialer lookupPort rebinding addr = .ok [⟨mapped4 [127, 0, 0, 1], []⟩] := by
  refine ssrfDialer_eq_ok.mpr ⟨host, port, ["93.184.216.34"], hsplit, ?_, ?_, ?_⟩
  · rw [lookupHost, if_neg hne, ha]
    rfl
  · rintro ipStr hmem ip hip
    obtain rfl := mem_singleton.mp hmem
    obtain rfl := Option.some.inj hip
    decide +kernel
  · refine (dialAddrs_eq_ok hsplit hne).mpr ⟨hport, [⟨mapped4 [127, 0, 0, 1], []⟩], ?_, ?_, ?_⟩
    · rw [lookupIPAddr, ha]
      rfl
    · exact cons_ne_nil _ _
    · rfl

/-- The guard holds exactly if nothing is dialled, or the host is an address that the check can
read. -/
theorem ssrfDialer_iff (lookupPort : Bytes → Res Nat) (addr : Bytes) :
    (∀ dns addrs, ssrfDialer lookupPort dns addr = .ok addrs →
      ∀ a ∈ addrs, isForbidden a.ip = false)
      ↔ ∀ host port n, splitHostPort addr = .ok (host, port) → host ≠ [] →
        lookupPort port = .ok n → ∃ a, parseAddr host = some a
          ∧ (isForbidden a.ip = true → a.zone = [] ∧ a.ip ≠ ip6Unspecified) := by
  constructor
  · intro h host port n hsplit hne hport
    cases ha : parseAddr host with
    | none =>
      have hconn := ssrfDialer_rebinding hsplit hne ⟨n, hport⟩ ha
      exact absurd (h _ _ hconn _ (mem_singleton_self _)) (by decide)
    | some a =>
      refine ⟨a, rfl, fun hforbidden => ?_⟩
      -- a zone hides the address from the guard, and the guard does not know `::`
      by_contra hsafe
      have hpass : a.zone = [] → isPrivateIP a.ip = false := by
        intro hzone
        have hip : a.ip = ip6Unspecified := by
          by_contra hip
          exact hsafe ⟨hzone, hip⟩
        rw [hip]
        exact isPrivateIP_unspecified
      have hmem : a ∈ if a.ip = ip6Unspecified then [a, ⟨mapped4 [0, 0, 0, 0], []⟩] else [a] := by
        split
        · exact mem_cons_self
        · exact mem_cons_self
      have hallowed := h rebinding _
        ((ssrfDialer_literal hsplit hne ⟨n, hport⟩ ha).mpr ⟨hpass, rfl⟩) a hmem
      rw [hallowed] at hforbidden
      cases hforbidden
  · intro h dns addrs hconn a' ha'
    obtain ⟨host, port, ips, hsplit, hips, -, hdial⟩ := ssrfDialer_eq_ok.mp hconn
    have hne : host ≠ [] := by
      rintro rfl
      exact absurd hips (err_ne_ok _ _)
    obtain ⟨⟨n, hport⟩, -⟩ := (dialAddrs_eq_ok hsplit hne).mp hdial
    obtain ⟨a, ha, hsafe⟩ := h host port n hsplit hne hport
    obtain ⟨hpass, rfl⟩ := (ssrfDialer_literal hsplit hne ⟨n, hport⟩ ha).mp hconn
    have hok : isForbidden a.ip = false := by
      by_contra hforbidden
      rw [Bool.not_eq_false] at hforbidden
      obtain ⟨hzone, hip⟩ := hsafe hforbidden
      rw [isPrivateIP_of_isForbidden hforbidden hip] at hpass
      exact absurd (hpass hzone) (by decide)
    have hip : a.ip ≠ ip6Unspecified := by
      intro hip
      rw [hip, isForbidden_unspecified] at hok
      cases hok
    rw [if_neg hip] at ha'
    rw [mem_singleton.mp ha']
    exact hok

theorem ssrfDialer_local :
    ssrfDialer (fun _ => .ok 443) (fun _ => answering "::" ip6Unspecified) "[::]:443"
        = .ok [⟨ip6Unspecified, []⟩, ⟨mapped4 [0, 0, 0, 0], []⟩]
      ∧ ssrfDialer (fun _ => .ok 443) rebinding "evil.com:443"
        = .ok [⟨mapped4 [127, 0, 0, 1], []⟩]
      ∧ isForbidden ip6Unspecified = true ∧ isForbidden (mapped4 [127, 0, 0, 1]) = true := by
  decide +kernel

end TptIdentity.Did
