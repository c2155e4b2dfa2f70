import BlockWatch.Net.Address

/-!
# Reading internet addresses

The readers take an address off the front of a text and return the rest; an address is accepted
when nothing is left. Octets have no leading zeros, groups have at most four digits, and the last
two groups of an IPv6 host may be written as an IPv4 host.
-/

namespace BlockWatch.Net

/-- A reader returns what it read from the front and what is left. -/
abbrev Reader (α : Type) : Type := List Char → Option (α × List Char)

namespace Reader

/-- The value of a digit in a base up to sixteen. -/
def digit? (base : Nat) (c : Char) : Option Nat :=
  let n := c.toNat
  let value :=
    if '0'.toNat ≤ n ∧ n ≤ '9'.toNat then some (n - '0'.toNat)
    else if 'a'.toNat ≤ n ∧ n ≤ 'f'.toNat then some (n - 'a'.toNat + 10)
    else if 'A'.toNat ≤ n ∧ n ≤ 'F'.toNat then some (n - 'A'.toNat + 10)
    else none
  value.filter (· < base)

/-- The digits at the front of a text. -/
def digits (base : Nat) (s : List Char) : List Nat :=
  (s.takeWhile fun c => (digit? base c).isSome).filterMap (digit? base)

/-- A number below `limit`, of at most `width` digits if there is a limit on them. -/
def number (base : Nat) (width : Option Nat) (leadingZero : Bool) (limit : Nat) : Reader Nat :=
  fun s =>
    let found := digits base s
    let value := found.foldl (fun n d => n * base + d) 0
    let tooWide := match width with
      | some most => decide (most < found.length)
      | none => false
    if found.isEmpty || tooWide then none
    else if !leadingZero && found.head? == some 0 && 1 < found.length then none
    else if limit ≤ value then none
    else some (value, s.drop found.length)

/-- One given character. -/
def char (c : Char) : Reader Unit
  | d :: rest => if c = d then some ((), rest) else none
  | [] => none

def ipv4 : Reader Ipv4 := fun s => do
  let octet := number 10 (some 3) false 256
  let (a, s) ← octet s
  let (_, s) ← char '.' s
  let (b, s) ← octet s
  let (_, s) ← char '.' s
  let (c, s) ← octet s
  let (_, s) ← char '.' s
  let (d, s) ← octet s
  pure (⟨UInt8.ofNat a, UInt8.ofNat b, UInt8.ofNat c, UInt8.ofNat d⟩, s)

/-- What stands behind the colon that separates all groups but the first. -/
def separated {α : Type} (first : Bool) (inner : Reader α) : Reader α := fun s =>
  if first then inner s else do
    let (_, s) ← char ':' s
    inner s

/-- As many groups as there are, up to `room`, and whether they end in an IPv4 host. -/
def groups (first : Bool) : Nat → List Char → List UInt16 × Bool × List Char
  | 0, s => ([], false, s)
  | room + 1, s =>
    let inner := if room = 0 then none else separated first ipv4 s
    match inner with
    | some (a, rest) =>
      let join (high low : UInt8) : UInt16 := high.toUInt16 * 256 + low.toUInt16
      ([join a.first a.second, join a.third a.fourth], true, rest)
    | none =>
      match separated first (number 16 (some 4) true 65536) s with
      | none => ([], false, s)
      | some (group, rest) =>
        let (more, embedded, rest) := groups false room rest
        (UInt16.ofNat group :: more, embedded, rest)

/-- Eight groups, if there are that many. -/
def ofGroups? (groups : List UInt16) : Option Ipv6 :=
  if h : groups.length = 8 then some ⟨⟨groups.toArray, by simpa using h⟩⟩ else none

/-- Eight groups, or fewer around a double colon that stands for at least one zero group. -/
def ipv6 : Reader Ipv6 := fun s => do
  let (head, embedded, s) := groups true 8 s
  if head.length = 8 then pure (← ofGroups? head, s)
  else if embedded then none
  else
    let (_, s) ← char ':' s
    let (_, s) ← char ':' s
    let (tail, _, s) := groups true (8 - (head.length + 1)) s
    let zeros := List.replicate (8 - head.length - tail.length) 0
    pure (← ofGroups? (head ++ zeros ++ tail), s)

def host : Reader Host := fun s =>
  match ipv4 s with
  | some (address, rest) => some (.v4 address, rest)
  | none => (ipv6 s).map fun (address, rest) => (.v6 address, rest)

def port : Reader UInt16 := fun s => do
  let (_, s) ← char ':' s
  let (value, s) ← number 10 none true 65536 s
  pure (UInt16.ofNat value, s)

def endpointV4 : Reader Endpoint := fun s => do
  let (address, s) ← ipv4 s
  let (port, s) ← port s
  pure (.v4 address port, s)

/-- The number of a scope behind a percent sign, zero if there is none. -/
def scope : Reader UInt32 := fun s =>
  let found := do
    let (_, s) ← char '%' s
    let (value, s) ← number 10 none true UInt32.size s
    pure (UInt32.ofNat value, s)
  some (found.getD (0, s))

def endpointV6 : Reader Endpoint := fun s => do
  let (_, s) ← char '[' s
  let (address, s) ← ipv6 s
  let (scope, s) ← scope s
  let (_, s) ← char ']' s
  let (port, s) ← port s
  pure (.v6 address scope port, s)

/-- What was read, if nothing is left. -/
def whole {α : Type} (reader : Reader α) (text : String) : Option α :=
  match reader text.toList with
  | some (value, []) => some value
  | _ => none

end Reader

def Host.ofText? (text : String) : Option Host := Reader.whole Reader.host text

/-- Reads an endpoint, with an IPv6 host in brackets. -/
def Endpoint.ofText? (text : String) : Option Endpoint :=
  match Reader.whole Reader.endpointV4 text with
  | some endpoint => some endpoint
  | none => Reader.whole Reader.endpointV6 text

end BlockWatch.Net
