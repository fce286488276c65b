/-!
Every character has one encoding, the shortest, and surrogates have none. Decoding stops at the
first sequence that is no encoding and gives the offset of its first byte.
-/

namespace InkGauge.Text.Utf8

/-- Is the byte one of those in a range? -/
def within (low high : UInt8) (b : UInt8) : Bool := low ≤ b && b ≤ high

def isTail (b : UInt8) : Bool := within 0x80 0xBF b

/-- Do two bytes encode a character? -/
def isTwo (a b : UInt8) : Bool := within 0xC2 0xDF a && isTail b

/-- Do three bytes encode a character? The second is restricted where the encoding would not be the
shortest, or would be that of a surrogate. -/
def isThree (a b c : UInt8) : Bool :=
  within 0xE0 0xEF a && within (if a = 0xE0 then 0xA0 else 0x80) (if a = 0xED then 0x9F else 0xBF) b
    && isTail c

/-- Do four bytes encode a character? The second is restricted where the encoding would not be the
shortest, or would go beyond the last character. -/
def isFour (a b c d : UInt8) : Bool :=
  within 0xF0 0xF4 a && within (if a = 0xF0 then 0x90 else 0x80) (if a = 0xF4 then 0x8F else 0xBF) b
    && isTail c && isTail d

/-- The bits that a byte after the first adds to those before it. -/
def shift (high : Nat) (b : UInt8) : Nat := high * 64 + b.toNat % 64

/-- The text in some bytes that stand at an offset, or the offset of the first that are no text. -/
def decodeFrom (offset : Nat) : List UInt8 → Except Nat (List Char)
  | [] => .ok []
  | a :: s =>
    if a < 0x80 then do return Char.ofNat a.toNat :: (← decodeFrom (offset + 1) s)
    else
      match s with
      | [] => .error offset
      | b :: s =>
        if isTwo a b then do
          return Char.ofNat (shift (a.toNat % 32) b) :: (← decodeFrom (offset + 2) s)
        else
          match s with
          | [] => .error offset
          | c :: s =>
            if isThree a b c then do
              return Char.ofNat (shift (shift (a.toNat % 16) b) c)
                :: (← decodeFrom (offset + 3) s)
            else
              match s with
              | [] => .error offset
              | d :: s =>
                if isFour a b c d then do
                  return Char.ofNat (shift (shift (shift (a.toNat % 8) b) c) d)
                    :: (← decodeFrom (offset + 4) s)
                else .error offset

/-- The text in some bytes, or the offset of the first that are no text. -/
def decode (bytes : List UInt8) : Except Nat (List Char) := decodeFrom 0 bytes

end InkGauge.Text.Utf8
