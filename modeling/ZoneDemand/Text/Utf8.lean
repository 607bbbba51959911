/-!
# UTF-8 octets

Files and stored objects are lists of octets.  `Utf8.encode` writes text as
octets; `Utf8.decode` reads it back and refuses an ill-formed list with the
number of octets before the first ill-formed sequence.
-/

namespace ZoneDemand

/-- The content of a file, of a stored object or of one field of a record. -/
abbrev Bytes := List UInt8

namespace Utf8

def encode (text : String) : Bytes :=
  text.toList.flatMap String.utf8EncodeChar

def isContinuation (octet : UInt8) : Bool :=
  0x80 ≤ octet && octet ≤ 0xBF

def payload (octet : UInt8) : Nat := octet.toNat % 0x40

/-- The character that starts the list and the octets after it.  The bounds on
the second octet exclude overlong forms, surrogates and values above
`0x10FFFF`. -/
def decodeChar? : Bytes → Option (Char × Bytes)
  | [] => none
  | a :: rest =>
      if a < 0x80 then some (Char.ofNat a.toNat, rest)
      else if a < 0xC2 then none
      else match rest with
        | [] => none
        | b :: rest =>
            if a < 0xE0 then
              if isContinuation b then
                some (Char.ofNat (a.toNat % 0x20 * 0x40 + payload b), rest)
              else none
            else match rest with
              | [] => none
              | c :: rest =>
                  if a < 0xF0 then
                    if isContinuation b && isContinuation c &&
                        (a != 0xE0 || 0xA0 ≤ b) && (a != 0xED || b ≤ 0x9F) then
                      some (Char.ofNat
                        ((a.toNat % 0x10 * 0x40 + payload b) * 0x40 + payload c), rest)
                    else none
                  else match rest with
                    | [] => none
                    | d :: rest =>
                        if isContinuation b && isContinuation c && isContinuation d &&
                            a < 0xF5 && (a != 0xF0 || 0x90 ≤ b) && (a != 0xF4 || b ≤ 0x8F) then
                          some (Char.ofNat
                            (((a.toNat % 0x08 * 0x40 + payload b) * 0x40 + payload c) * 0x40 +
                              payload d), rest)
                        else none

theorem length_lt_of_decodeChar? {octets rest : Bytes} {c : Char}
    (h : decodeChar? octets = some (c, rest)) : rest.length < octets.length := by
  unfold decodeChar? at h
  grind

/-- Reads all octets, after `position` octets and the characters `before`
(last first) have been read. -/
def decodeFrom (position : Nat) (before : List Char) (octets : Bytes) :
    Except Nat (List Char) :=
  match octets with
  | [] => .ok before.reverse
  | a :: tail =>
      match h : decodeChar? (a :: tail) with
      | none => .error position
      | some (c, rest) =>
          have : rest.length < (a :: tail).length := length_lt_of_decodeChar? h
          decodeFrom (position + c.utf8Size) (c :: before) rest
termination_by octets.length
decreasing_by assumption

/-- The text of a well-formed list, or the length of its longest well-formed
initial part. -/
def decode (octets : Bytes) : Except Nat String :=
  (decodeFrom 0 [] octets).map String.ofList

def decode? (octets : Bytes) : Option String := (decode octets).toOption

end Utf8
end ZoneDemand
