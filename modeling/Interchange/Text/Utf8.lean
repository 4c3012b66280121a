/-!
UTF-8: the octets of a text and the text of octets. Reading refuses at the first place where no
character can be completed, and says whether the octets there are wrong or merely end too early.
-/

namespace Interchange.Text.Utf8

/-- Octets, in order. -/
abbrev Octets := List UInt8

/-- Why octets are no text: from `index` on, `length` octets begin no character, or, when `length`
is absent, the octets end inside a character. -/
structure Error where
  index : Nat
  length : Option Nat
  deriving DecidableEq, Repr

def Error.message (e : Error) : String :=
  match e.length with
  | some k => "invalid utf-8 sequence of " ++ toString k ++ " bytes from index " ++ toString e.index
  | none => "incomplete utf-8 byte sequence from index " ++ toString e.index

/-- An octet that continues a character. -/
def isTail (b : UInt8) : Bool := 0x80 ≤ b && b ≤ 0xBF

/-- The octets that may follow the first octet of a character of three. -/
def isSecondOfThree (a b : UInt8) : Bool :=
  if a = 0xE0 then 0xA0 ≤ b && b ≤ 0xBF
  else if a = 0xED then 0x80 ≤ b && b ≤ 0x9F
  else isTail b

/-- The octets that may follow the first octet of a character of four. -/
def isSecondOfFour (a b : UInt8) : Bool :=
  if a = 0xF0 then 0x90 ≤ b && b ≤ 0xBF
  else if a = 0xF4 then 0x80 ≤ b && b ≤ 0x8F
  else isTail b

/-- The six low bits of an octet that continues a character. -/
def low (b : UInt8) : Nat := b.toNat % 64

/-- Reads characters from octets of which the first is number `index`. -/
def decodeFrom (index : Nat) : Octets → Except Error (List Char)
  | [] => .ok []
  | a :: rest =>
    let wrong (k : Nat) : Except Error (List Char) := .error ⟨index, some k⟩
    let short : Except Error (List Char) := .error ⟨index, none⟩
    if a < 0x80 then (decodeFrom (index + 1) rest).map (Char.ofNat a.toNat :: ·)
    else if 0xC2 ≤ a && a ≤ 0xDF then
      match rest with
      | [] => short
      | b :: rest =>
        if !isTail b then wrong 1
        else (decodeFrom (index + 2) rest).map (Char.ofNat (a.toNat % 32 * 64 + low b) :: ·)
    else if 0xE0 ≤ a && a ≤ 0xEF then
      match rest with
      | [] => short
      | b :: rest =>
        if !isSecondOfThree a b then wrong 1
        else match rest with
          | [] => short
          | c :: rest =>
            if !isTail c then wrong 2
            else (decodeFrom (index + 3) rest).map
              (Char.ofNat ((a.toNat % 16 * 64 + low b) * 64 + low c) :: ·)
    else if 0xF0 ≤ a && a ≤ 0xF4 then
      match rest with
      | [] => short
      | b :: rest =>
        if !isSecondOfFour a b then wrong 1
        else match rest with
          | [] => short
          | c :: rest =>
            if !isTail c then wrong 2
            else match rest with
              | [] => short
              | d :: rest =>
                if !isTail d then wrong 3
                else (decodeFrom (index + 4) rest).map
                  (Char.ofNat (((a.toNat % 8 * 64 + low b) * 64 + low c) * 64 + low d) :: ·)
    else wrong 1

/-- The characters that octets stand for. -/
def decode (octets : Octets) : Except Error (List Char) := decodeFrom 0 octets

/-- The text that octets stand for. -/
def decodeText (octets : Octets) : Except Error String := (decode octets).map String.ofList

def encodeChar (c : Char) : Octets :=
  let n := c.toNat
  if n < 0x80 then [n.toUInt8]
  else if n < 0x800 then [(0xC0 + n / 64).toUInt8, (0x80 + n % 64).toUInt8]
  else if n < 0x10000 then
    [(0xE0 + n / 4096).toUInt8, (0x80 + n / 64 % 64).toUInt8, (0x80 + n % 64).toUInt8]
  else
    [(0xF0 + n / 262144).toUInt8, (0x80 + n / 4096 % 64).toUInt8, (0x80 + n / 64 % 64).toUInt8,
      (0x80 + n % 64).toUInt8]

def encode (cs : List Char) : Octets := cs.flatMap encodeChar

def encodeText (s : String) : Octets := encode s.toList

@[simp] theorem encode_nil : encode [] = [] := rfl

@[simp] theorem encode_cons (c : Char) (cs : List Char) :
    encode (c :: cs) = encodeChar c ++ encode cs := rfl

theorem encode_append (xs ys : List Char) : encode (xs ++ ys) = encode xs ++ encode ys := by
  simp [encode]

end Interchange.Text.Utf8
