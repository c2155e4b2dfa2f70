/-!
# Internet addresses

Hosts and endpoints with their canonical text: an IPv6 host is written in lower case with its
longest run of at least two zero groups left out, the first such run of two, and a host that
embeds an IPv4 address behind `::ffff:` shows it in that form.
-/

namespace BlockWatch.Net

/-- An IPv4 host. -/
structure Ipv4 where
  first : UInt8
  second : UInt8
  third : UInt8
  fourth : UInt8
deriving DecidableEq, Repr

/-- An IPv6 host as eight groups of sixteen bits. -/
structure Ipv6 where
  groups : Vector UInt16 8
deriving DecidableEq, Repr

/-- A host. -/
inductive Host
  | v4 (address : Ipv4)
  | v6 (address : Ipv6)
deriving DecidableEq, Repr

/-- A port of a host. An IPv6 host may be qualified by the number of a scope, zero for none. -/
inductive Endpoint
  | v4 (address : Ipv4) (port : UInt16)
  | v6 (address : Ipv6) (scope : UInt32) (port : UInt16)
deriving DecidableEq, Repr

def Ipv4.loopback : Ipv4 := ⟨127, 0, 0, 1⟩

/-- The endpoint at a port of a host, in no scope. -/
def Endpoint.ofHost : Host → UInt16 → Endpoint
  | .v4 address, port => .v4 address port
  | .v6 address, port => .v6 address 0 port

/-! ## Text -/

def Ipv4.text (a : Ipv4) : String :=
  toString a.first ++ "." ++ toString a.second ++ "." ++ toString a.third ++ "." ++
    toString a.fourth

namespace Ipv6

private def groupText (group : UInt16) : String := String.ofList (Nat.toDigits 16 group.toNat)

private def groupsText (groups : List UInt16) : String := ":".intercalate (groups.map groupText)

/-- How many zero groups stand at the front. -/
def leadingZeros (groups : List UInt16) : Nat := (groups.takeWhile (· == 0)).length

/-- Where the longest run of zero groups starts and how long it is, the first one of several. -/
def longestZeros (groups : List UInt16) : Nat × Nat :=
  (List.range groups.length).foldl
    (fun best start =>
      let length := leadingZeros (groups.drop start)
      if best.2 < length then (start, length) else best)
    (0, 0)

/-- The IPv4 host behind `::ffff:`, if the groups start like that. -/
def embedded? (a : Ipv6) : Option Ipv4 :=
  match a.groups.toList with
  | [0, 0, 0, 0, 0, 0xffff, high, low] =>
    some ⟨(high >>> 8).toUInt8, high.toUInt8, (low >>> 8).toUInt8, low.toUInt8⟩
  | _ => none

def text (a : Ipv6) : String :=
  match a.embedded? with
  | some inner => "::ffff:" ++ inner.text
  | none =>
    let groups := a.groups.toList
    let (start, length) := longestZeros groups
    if 1 < length then
      groupsText (groups.take start) ++ "::" ++ groupsText (groups.drop (start + length))
    else groupsText groups

end Ipv6

def Host.text : Host → String
  | v4 address => address.text
  | v6 address => address.text

def Endpoint.text : Endpoint → String
  | v4 address port => address.text ++ ":" ++ toString port
  | v6 address scope port =>
    let qualified :=
      if scope = 0 then address.text else address.text ++ "%" ++ toString scope
    "[" ++ qualified ++ "]:" ++ toString port

end BlockWatch.Net
