/-!
# Decoded text

Bytes as text in UTF-8. What is not well formed becomes one replacement character for every longest
run of bytes that could have started a character.
-/

namespace BlockWatch.Text

def replacement : Char := '\ufffd'

private def isWithin (low high : Nat) (b : UInt8) : Bool := low ≤ b.toNat && b.toNat ≤ high

private def continues (b : UInt8) : Bool := isWithin 0x80 0xBF b

/-- The bytes that may follow the first byte of a character of three or four bytes. -/
private def followers (first : Nat) : Nat × Nat :=
  if first = 0xE0 then (0xA0, 0xBF)
  else if first = 0xED then (0x80, 0x9F)
  else if first = 0xF0 then (0x90, 0xBF)
  else if first = 0xF4 then (0x80, 0x8F)
  else (0x80, 0xBF)

def decode : List UInt8 → List Char
  | [] => []
  | a :: rest =>
    let first := a.toNat
    let (low, high) := followers first
    if first < 0x80 then Char.ofNat first :: decode rest
    else if 0xC2 ≤ first ∧ first ≤ 0xDF then
      match rest with
      | b :: rest' =>
        if continues b then Char.ofNat ((first - 0xC0) * 64 + (b.toNat - 0x80)) :: decode rest'
        else replacement :: decode (b :: rest')
      | [] => [replacement]
    else if 0xE0 ≤ first ∧ first ≤ 0xEF then
      match rest with
      | b :: rest' =>
        if isWithin low high b then
          match rest' with
          | c :: rest'' =>
            if continues c then
              Char.ofNat ((first - 0xE0) * 4096 + (b.toNat - 0x80) * 64 + (c.toNat - 0x80)) ::
                decode rest''
            else replacement :: decode (c :: rest'')
          | [] => [replacement]
        else replacement :: decode (b :: rest')
      | [] => [replacement]
    else if 0xF0 ≤ first ∧ first ≤ 0xF4 then
      match rest with
      | b :: rest' =>
        if isWithin low high b then
          match rest' with
          | c :: rest'' =>
            if continues c then
              match rest'' with
              | d :: rest''' =>
                if continues d then
                  Char.ofNat ((first - 0xF0) * 262144 + (b.toNat - 0x80) * 4096 +
                    (c.toNat - 0x80) * 64 + (d.toNat - 0x80)) :: decode rest'''
                else replacement :: decode (d :: rest''')
              | [] => [replacement]
            else replacement :: decode (c :: rest'')
          | [] => [replacement]
        else replacement :: decode (b :: rest')
      | [] => [replacement]
    else replacement :: decode rest

/-- The text of bytes. -/
def ofBytes (bytes : ByteArray) : String :=
  match String.fromUTF8? bytes with
  | some text => text
  | none => String.ofList (decode bytes.toList)

end BlockWatch.Text
