import IpServer.Basic
import Mathlib.Data.List.Basic

/-!
# Validation of addresses

What counts as an IP address is decided by the resolver of the system, which is a
parameter; it is given a C string, so that it sees a text only up to the first
NUL. What counts as a MAC address is decided character by character.
-/

namespace IpServer

/-- The resolver of the system. -/
structure Resolver where
  /-- `inet_pton(AF_INET, s, &addr) == 1` -/
  inetPton : String → Bool
  /-- `getaddrinfo(s, nullptr, &hints, &result) == 0`, for numeric IPv6 hosts -/
  getaddrinfo : String → Bool

/-- `s.c_str()`, as a C string. -/
def cStr (s : String) : String := String.ofList (s.toList.takeWhile (· ≠ '\x00'))

/-- `isValidIpFormat`. -/
def isValidIpFormat (resolver : Resolver) (ip : String) : Bool :=
  if resolver.inetPton (cStr ip) then true
  else if ip = "" || ip.toList.contains '%' then false
  else resolver.getaddrinfo (cStr ip)

/-- The lambda `isHex` of `isValidMacFormat`: `isxdigit`, in the C locale. -/
def isHex (c : Char) : Bool :=
  ('0' ≤ c && c ≤ '9') || ('a' ≤ c && c ≤ 'f') || ('A' ≤ c && c ≤ 'F')

/-- The loop of `isValidMacFormat` over 17 characters, from the index `i` on. -/
def isSeparated : ℕ → List Char → Bool
  | _, [] => true
  | i, c :: cs =>
    if i % 3 = 2 then
      if c ≠ ':' && c ≠ '-' then false else isSeparated (i + 1) cs
    else if !isHex c then false
    else isSeparated (i + 1) cs

/-- `isValidMacFormat`. -/
def isValidMacFormat (mac : String) : Bool :=
  if mac.length = 17 then isSeparated 0 mac.toList
  else if mac.length = 12 then mac.toList.all isHex
  else false

end IpServer
