import TptIdentity.GoDecimal
import TptIdentity.GoText
import Mathlib.Data.List.DropRight

/-!
# Package net: addresses and the texts they are written in

An address is a byte list of length four or sixteen, as `net.IP` is, and its classification
looks through the mapping of IPv4 into IPv6. The texts are those of `netip.ParseAddr`,
`net.ParseIP` and `net.SplitHostPort`.
-/

namespace Go

open List

/-! ## Addresses -/

abbrev IP := Bytes

def to4 (ip : IP) : Option IP :=
  if ip.length = 4 then some ip
  else if ip.length = 16 ∧ ip.take 12 = replicate 10 0 ++ [0xff, 0xff] then some (ip.drop 12)
  else none

def addressBit (ip : IP) (i : Nat) : Bool := (ip.getD (i / 8) 0).toNat.testBit (7 - i % 8)

def blockContains (block : IP × Nat) (ip : IP) : Bool :=
  let ip := (to4 ip).getD ip
  decide (ip.length = block.1.length)
    && (range block.2).all fun i => addressBit ip i == addressBit block.1 i

def ip6 (start : List UInt8) : IP := start ++ replicate (16 - start.length) 0

def ip6Loopback : IP := replicate 15 0 ++ [1]

def ip6Unspecified : IP := replicate 16 0

def mapped4 (ip : IP) : IP := replicate 10 0 ++ [0xff, 0xff] ++ ip

def isLoopback (ip : IP) : Bool :=
  match to4 ip with
  | some ip => ip.getD 0 0 == 127
  | none => ip == ip6Loopback

def isUnspecified (ip : IP) : Bool :=
  match to4 ip with
  | some ip => ip == [0, 0, 0, 0]
  | none => ip == ip6Unspecified

def isLinkLocalUnicast (ip : IP) : Bool :=
  match to4 ip with
  | some ip => ip.getD 0 0 == 169 && ip.getD 1 0 == 254
  | none => ip.length == 16 && ip.getD 0 0 == 0xfe && ip.getD 1 0 &&& 0xc0 == 0x80

def isLinkLocalMulticast (ip : IP) : Bool :=
  match to4 ip with
  | some ip => ip.getD 0 0 == 224 && ip.getD 1 0 == 0 && ip.getD 2 0 == 0
  | none => ip.length == 16 && ip.getD 0 0 == 0xff && ip.getD 1 0 &&& 0x0f == 0x02

def isPrivate (ip : IP) : Bool :=
  match to4 ip with
  | some ip => ip.getD 0 0 == 10 || (ip.getD 0 0 == 172 && ip.getD 1 0 &&& 0xf0 == 16)
      || (ip.getD 0 0 == 192 && ip.getD 1 0 == 168)
  | none => ip.length == 16 && ip.getD 0 0 &&& 0xfe == 0xfc

variable {ip : IP} {host : Bytes} (d tail : Bytes)

theorem to4_eq_some {ip4 : IP} (h : to4 ip = some ip4) : ∃ a b c d, ip4 = [a, b, c, d] := by
  rw [to4] at h
  have hlen : ip4.length = 4 := by
    split at h
    · next hip => exact Option.some.inj h ▸ hip
    · split at h
      · next hip =>
        rw [← Option.some.inj h, length_drop, hip.1]
      · cases h
  obtain ⟨a, rest, rfl⟩ := exists_of_length_succ ip4 hlen
  obtain ⟨b, c, d, rfl⟩ := length_eq_three.mp (Nat.succ.inj hlen)
  exact ⟨a, b, c, d, rfl⟩

theorem blockContains_of_bits {block : IP × Nat} (hlen : ((to4 ip).getD ip).length = block.1.length)
    (h : ∀ i < block.2, addressBit ((to4 ip).getD ip) i = addressBit block.1 i) :
    blockContains block ip := by
  rw [blockContains, Bool.and_eq_true]
  refine ⟨decide_eq_true hlen, all_eq_true.mpr fun i hi => ?_⟩
  exact beq_iff_eq.mpr (h i (mem_range.mp hi))

theorem testBit_of_and_eq {a m v : UInt8} (h : a &&& m = v) {k : Nat}
    (hm : m.toNat.testBit k) : a.toNat.testBit k = v.toNat.testBit k := by
  rw [← h, UInt8.toNat_and, Nat.testBit_and, hm, Bool.and_true]

/-! ## The texts of addresses -/

structure IPAddr where
  ip : IP
  zone : Bytes := []
deriving DecidableEq, Repr

variable {a : IPAddr}

def isOctet (s : Bytes) : Bool :=
  decide (s ≠ []) && s.all isDigit && (decide (s.length = 1) || decide (s.head? ≠ some 48))
    && decide (natVal s ≤ 255)

def parseIPv4Fields (s : Bytes) : Option IP :=
  let parts := s.splitOn 46
  if parts.length = 4 ∧ parts.all isOctet = true then
    some (parts.map fun p => UInt8.ofNat (natVal p))
  else none

def hexGroup (digits : Bytes) : Bytes :=
  let acc := digits.foldl (fun acc c => acc * 16 + (hexVal c).getD 0) 0
  [UInt8.ofNat (acc / 256), UInt8.ofNat (acc % 256)]

def parseIPv6Groups : Nat → IP → Option Nat → Bytes → Option (IP × Option Nat)
  | 0, ip, ellipsis, s => if s = [] then some (ip, ellipsis) else none
  | n + 1, ip, ellipsis, s =>
    let digits := s.takeWhile fun c => (hexVal c).isSome
    if digits = [] ∨ 4 < digits.length then none
    else
      let ip' := ip ++ hexGroup digits
      match s.drop digits.length with
      | [] => some (ip', ellipsis)
      | 46 :: _ =>
        -- the last four bytes may be written as an IPv4 address
        if (ellipsis = none ∧ ip.length ≠ 12) ∨ 16 < ip.length + 4 then none
        else (parseIPv4Fields s).map fun ip4 => (ip ++ ip4, ellipsis)
      | [58] => none
      | 58 :: 58 :: rest =>
        if ellipsis.isSome then none
        else if rest = [] then some (ip', some ip'.length)
        else parseIPv6Groups n ip' (some ip'.length) rest
      | 58 :: rest => parseIPv6Groups n ip' ellipsis rest
      | _ => none

def expandEllipsis : IP × Option Nat → Option IP
  | (ip, none) => if ip.length < 16 then none else some ip
  | (ip, some i) =>
    if ip.length < 16 then
      some (ip.take i ++ replicate (16 - ip.length) 0 ++ ip.drop i)
    else none

def parseIPv6Address (s : Bytes) : Option IP :=
  match s with
  | [58, 58] => some ip6Unspecified
  | 58 :: 58 :: s => (parseIPv6Groups 8 [] (some 0) s).bind expandEllipsis
  | s => (parseIPv6Groups 8 [] none s).bind expandEllipsis

def parseIPv6 (s : Bytes) : Option IPAddr :=
  match cut 37 s with
  | none => (parseIPv6Address s).map fun ip => ⟨ip, []⟩
  | some (_, []) => none
  | some (s, zone) => (parseIPv6Address s).map fun ip => ⟨ip, zone⟩

def parseAddr (s : Bytes) : Option IPAddr :=
  match s.find? fun c => c == 46 || c == 58 || c == 37 with
  | some 46 => (parseIPv4Fields s).map fun ip => ⟨mapped4 ip, []⟩
  | some 58 => parseIPv6 s
  | _ => none

def parseIP (s : Bytes) : Option IP :=
  (parseAddr s).bind fun addr => if addr.zone = [] then some addr.ip else none

example : parseAddr "fe80::1%eth0" = some ⟨ip6 [0xfe, 0x80] |>.set 15 1, "eth0"⟩ := by
  decide +kernel

def splitHostPort (hostport : Bytes) : Res (Bytes × Bytes) :=
  let fail (why : String) : Res (Bytes × Bytes) := .err (.new why [hostport])
  let port := hostport.rtakeWhile (· ≠ 58)
  let i := hostport.length - port.length - 1
  if !hostport.contains 58 then fail "address %s: missing port in address"
  else if hostport.head? = some 91 then
    match cut 93 hostport with
    | none => fail "address %s: missing ']' in address"
    | some (_, []) => fail "address %s: missing port in address"
    | some (pre, c :: rest) =>
      if pre.length + 1 ≠ i then
        if c = 58 then fail "address %s: too many colons in address"
        else fail "address %s: missing port in address"
      else if (hostport.drop 1).contains 91 then fail "address %s: unexpected '[' in address"
      else if (c :: rest).contains 93 then fail "address %s: unexpected ']' in address"
      else .ok (pre.drop 1, port)
  else if (hostport.take i).contains 58 then fail "address %s: too many colons in address"
  else if hostport.contains 91 then fail "address %s: unexpected '[' in address"
  else if hostport.contains 93 then fail "address %s: unexpected ']' in address"
  else .ok (hostport.take i, port)

/-! ## Looking up and dialling -/

/-- What the DNS answers at one time, for names that are not addresses. -/
structure Dns where
  hostTexts : Bytes → Res (List Bytes)
  hostAddrs : Bytes → Res (List IPAddr)

variable {dns : Dns}

def lookupHost (dns : Dns) (host : Bytes) : Res (List Bytes) :=
  if host = [] then .err (.new "lookup: no such host" [])
  else if (parseAddr host).isSome then .ok [host]
  else dns.hostTexts host

def lookupIPAddr (dns : Dns) (host : Bytes) : Res (List IPAddr) :=
  match parseAddr host with
  | some addr => .ok [addr]
  | none => dns.hostAddrs host

/-- The addresses that a `net.Dialer` tries. `::` alone is followed by `0.0.0.0`. -/
def dialAddrs (lookupPort : Bytes → Res Nat) (dns : Dns) (addr : Bytes) : Res (List IPAddr) := do
  let (host, port) ← splitHostPort addr
  let _ ← lookupPort port
  if host = [] then return [⟨[], []⟩]
  let ips ← lookupIPAddr dns host
  if ips = [] then .err (.new "no suitable address found" [])
  else if ips.map IPAddr.ip = [ip6Unspecified] then return ips ++ [⟨mapped4 [0, 0, 0, 0], []⟩]
  else return ips

theorem lookupHost_of_parseAddr (hne : host ≠ []) (h : parseAddr host = some a) :
    lookupHost dns host = .ok [host] := by
  rw [lookupHost, if_neg hne, if_pos (by rw [h]; rfl)]

theorem lookupIPAddr_of_parseAddr (h : parseAddr host = some a) :
    lookupIPAddr dns host = .ok [a] := by
  rw [lookupIPAddr, h]

theorem dialAddrs_eq_ok {lookupPort : Bytes → Res Nat} {addr port : Bytes} {addrs : List IPAddr}
    (hsplit : splitHostPort addr = .ok (host, port)) (hne : host ≠ []) :
    dialAddrs lookupPort dns addr = .ok addrs ↔
      (∃ n, lookupPort port = .ok n) ∧ ∃ ips, lookupIPAddr dns host = .ok ips ∧ ips ≠ []
        ∧ addrs = if ips.map IPAddr.ip = [ip6Unspecified] then
            ips ++ [⟨mapped4 [0, 0, 0, 0], []⟩] else ips := by
  rw [dialAddrs, hsplit, Res.ok_bind, Res.bind_eq_ok]
  simp only [if_neg hne, exists_and_right, Res.bind_eq_ok, Res.ite_err_eq_ok]
  refine and_congr_right fun _ => exists_congr fun ips => and_congr_right fun _ =>
    and_congr_right fun _ => ?_
  split
  · exact ⟨fun h => (Res.ok.inj h).symm, fun h => congrArg Res.ok h.symm⟩
  · exact ⟨fun h => (Res.ok.inj h).symm, fun h => congrArg Res.ok h.symm⟩

/-! ## The authority of a URL -/

def hostPort (s : Bytes) : Bytes :=
  (s.takeWhile fun c => c != 47 && c != 63 && c != 35).rtakeWhile (· != 64)

def withoutPort (authority : Bytes) : Bytes :=
  let front := authority.rdropWhile fun c => c != 58 && c != 93
  if front.getLast? = some 58 then front.dropLast else authority

def urlHost (url : Bytes) : Bytes := withoutPort (hostPort (trimPrefix url "https://"))

theorem withoutPort_of_not_mem {authority : Bytes} (h : 58 ∉ authority) :
    withoutPort authority = authority := by
  refine if_neg fun hlast => h ?_
  exact (List.rdropWhile_prefix _ authority).subset (mem_of_getLast? hlast)

theorem hostPort_within : hostPort d <:+: d :=
  (rtakeWhile_suffix _ _).isInfix.trans (List.takeWhile_prefix _).isInfix

theorem hostPort_append_slash : hostPort (d ++ 47 :: tail) = hostPort d := by
  rw [hostPort, takeWhile_append]
  split
  · next h =>
    rw [takeWhile_cons_of_neg (by simp), append_nil, hostPort,
      (List.takeWhile_prefix _).eq_of_length h]
  · rfl

theorem urlHost_https {d : Bytes} (hd : 58 ∉ d) :
    urlHost ("https://" ++ (d ++ 47 :: tail)) = hostPort d := by
  rw [urlHost, trimPrefix_append, hostPort_append_slash]
  exact withoutPort_of_not_mem fun hmem => hd ((hostPort_within d).subset hmem)

theorem hostPort_eq_self_iff {d : Bytes} :
    hostPort d = d ↔ ∀ c ∈ d, c ≠ 47 ∧ c ≠ 63 ∧ c ≠ 35 ∧ c ≠ 64 := by
  constructor
  · intro h c hc
    have hmem : c ∈ hostPort d := h.symm ▸ hc
    have h64 := mem_rtakeWhile_imp hmem
    have htake := mem_takeWhile_imp ((rtakeWhile_suffix _ _).subset hmem)
    simp only [Bool.and_eq_true, bne_iff_ne, ne_eq] at h64 htake
    exact ⟨htake.1.1, htake.1.2, htake.2, h64⟩
  · intro h
    rw [hostPort, takeWhile_eq_self_iff.mpr, rtakeWhile_eq_self_iff.mpr]
    · intro c hc
      simpa using (h c hc).2.2.2
    · intro c hc
      simpa [and_assoc] using ⟨(h c hc).1, (h c hc).2.1, (h c hc).2.2.1⟩

example : urlHost "https://user@[::1]:443/path?q" = "[::1]" := by decide +kernel

end Go
