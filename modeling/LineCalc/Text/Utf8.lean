set_option autoImplicit false

/- Bytes as UTF-8 text. A malformed sequence ends before the first byte that cannot continue it,
and that byte starts afresh. -/
namespace LineCalc.Text

abbrev Bytes := List UInt8

def encode (text : List Char) : Bytes := text.flatMap String.utf8EncodeChar

/-- The number of bytes that encode a text. -/
def byteLength (text : List Char) : Nat := (encode text).length

/-- The start of a text that `count` bytes encode; none if they end inside a character. -/
def takeBytes? (count : Nat) : List Char → Option (List Char)
  | [] => some []
  | c :: rest =>
    if count = 0 then some []
    else if c.utf8Size ≤ count then (takeBytes? (count - c.utf8Size) rest).map (c :: ·)
    else none

/-- A character of which some bytes are read. The byte to come next lies in `low … high`. -/
structure Partial where
  taken : Nat
  missing : Nat
  low : UInt8
  high : UInt8
  code : Nat

/-- What one byte makes of the text before it. -/
inductive Progress where
  | whole (c : Char)
  | part (p : Partial)
  | invalid

/-- Reads a first byte. The bounds on the second one keep out overlong forms, surrogates and what
lies beyond the last code point. -/
def Progress.start (b : UInt8) : Progress :=
  if b < 0x80 then .whole (Char.ofNat b.toNat)
  else if b < 0xc2 then .invalid
  else if b < 0xe0 then .part ⟨1, 1, 0x80, 0xbf, b.toNat - 0xc0⟩
  else if b = 0xe0 then .part ⟨1, 2, 0xa0, 0xbf, 0⟩
  else if b = 0xed then .part ⟨1, 2, 0x80, 0x9f, 0xd⟩
  else if b < 0xf0 then .part ⟨1, 2, 0x80, 0xbf, b.toNat - 0xe0⟩
  else if b = 0xf0 then .part ⟨1, 3, 0x90, 0xbf, 0⟩
  else if b < 0xf4 then .part ⟨1, 3, 0x80, 0xbf, b.toNat - 0xf0⟩
  else if b = 0xf4 then .part ⟨1, 3, 0x80, 0x8f, 4⟩
  else .invalid

def Partial.next (p : Partial) (b : UInt8) : Progress :=
  if b < p.low ∨ p.high < b then .invalid
  else
    let code := p.code * 64 + (b.toNat - 0x80)
    if p.missing ≤ 1 then .whole (Char.ofNat code)
    else .part ⟨p.taken + 1, p.missing - 1, 0x80, 0xbf, code⟩

/-- Where a text stops being UTF-8, and how many bytes make up the malformed sequence; no length
if the bytes end inside a character. -/
structure Malformed where
  index : Nat
  length : Option Nat
  deriving DecidableEq, Repr

def Malformed.message (m : Malformed) : String :=
  match m.length with
  | some length => s!"invalid utf-8 sequence of {length} bytes from index {m.index}"
  | none => s!"incomplete utf-8 byte sequence from index {m.index}"

/-- Decodes from a character that starts at byte `index`, some of it perhaps read already. -/
def decodeFrom (index : Nat) (held : Option Partial) : Bytes → Except Malformed (List Char)
  | [] =>
    match held with
    | none => .ok []
    | some _ => .error ⟨index, none⟩
  | b :: rest =>
    match held with
    | none =>
      match Progress.start b with
      | .whole c => (decodeFrom (index + 1) none rest).map (c :: ·)
      | .part p => decodeFrom index (some p) rest
      | .invalid => .error ⟨index, some 1⟩
    | some p =>
      match p.next b with
      | .whole c => (decodeFrom (index + p.taken + 1) none rest).map (c :: ·)
      | .part p => decodeFrom index (some p) rest
      | .invalid => .error ⟨index, some p.taken⟩

def decode (bytes : Bytes) : Except Malformed (List Char) := decodeFrom 0 none bytes

def replacement : Char := '\uFFFD'

/-- Decodes with a replacement character for each malformed sequence. -/
def decodeLossyFrom (held : Option Partial) : Bytes → List Char
  | [] =>
    match held with
    | none => []
    | some _ => [replacement]
  | b :: rest =>
    let fresh : List Char :=
      match Progress.start b with
      | .whole c => c :: decodeLossyFrom none rest
      | .part p => decodeLossyFrom (some p) rest
      | .invalid => replacement :: decodeLossyFrom none rest
    match held with
    | none => fresh
    | some p =>
      match p.next b with
      | .whole c => c :: decodeLossyFrom none rest
      | .part p => decodeLossyFrom (some p) rest
      | .invalid => replacement :: fresh

def decodeLossy (bytes : Bytes) : List Char := decodeLossyFrom none bytes

end LineCalc.Text
