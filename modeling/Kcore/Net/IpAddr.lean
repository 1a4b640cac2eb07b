import Kcore.Net.Ipv4

/-!
# IP addresses as texts

`IpAddr::from_str` reads an IPv4 address or an IPv6 address and wants the text to end there. Only the family of the
address is used by the callers.
-/

namespace Kcore

inductive IpFamily where
  | v4
  | v6
  deriving DecidableEq

namespace IpAddr

def isHexDigit (c : Char) : Bool :=
  c.isDigit || (97 ≤ c.toNat && c.toNat ≤ 102) || (65 ≤ c.toNat && c.toNat ≤ 70)

/-- `read_number(10, Some(3), false)`. -/
def readOctet (cs : List Char) : Option (List Char) :=
  if (octet (cs.takeWhile Char.isDigit)).isSome then some (cs.dropWhile Char.isDigit) else none

/-- `read_number(16, Some(4), true)`. -/
def readGroup (cs : List Char) : Option (List Char) :=
  let digits := cs.takeWhile isHexDigit
  if digits ≠ [] ∧ digits.length ≤ 4 then some (cs.dropWhile isHexDigit) else none

def readChar (expected : Char) : List Char → Option (List Char)
  | [] => none
  | c :: cs => if c = expected then some cs else none

/-- `read_separator`: from the second item on, a separator stands before it. -/
def readSeparator (sep : Char) (index : Nat) (inner : List Char → Option (List Char)) (cs : List Char) :
    Option (List Char) :=
  if index = 0 then inner cs else (readChar sep cs).bind inner

def readIpv4Addr (cs : List Char) : Option (List Char) :=
  (readOctet cs).bind fun cs => (readSeparator '.' 1 readOctet cs).bind fun cs =>
    (readSeparator '.' 2 readOctet cs).bind fun cs => readSeparator '.' 3 readOctet cs

/-- `read_groups` from group `index` on with `left` groups to go: how many there are in the end, whether the last two
were written as an IPv4 address, and what is left of the text. -/
def readGroups : Nat → Nat → List Char → Nat × Bool × List Char
  | index, 0, cs => (index, false, cs)
  | index, left + 1, cs =>
    match if 0 < left then readSeparator ':' index readIpv4Addr cs else none with
    | some rest => (index + 2, true, rest)
    | none =>
      match readSeparator ':' index readGroup cs with
      | some rest => readGroups (index + 1) left rest
      | none => (index, false, cs)

def readIpv6Addr (cs : List Char) : Option (List Char) :=
  match readGroups 0 8 cs with
  | (size, v4, rest) =>
    if size = 8 then some rest
    else if v4 then none
    else
      (readChar ':' rest).bind fun rest => (readChar ':' rest).bind fun rest =>
        some (readGroups 0 (8 - (size + 1)) rest).2.2

end IpAddr

open IpAddr

def parseIpAddr (s : String) : Option IpFamily :=
  match readIpv4Addr s.toList with
  | some rest => if rest = [] then some .v4 else none
  | none => if readIpv6Addr s.toList = some [] then some .v6 else none

example : parseIpAddr "10.0.0.1" = some .v4 ∧ parseIpAddr "fd00::1:2" = some .v6 ∧
    parseIpAddr "::ffff:1.2.3.4" = some .v6 ∧ parseIpAddr "10.0.0.01" = none ∧
      parseIpAddr "1:2:3:4:5:6:7::8" = none := by decide

end Kcore
