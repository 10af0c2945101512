/-! Integers in one to nine bytes, such that the byte order of two encodings
is the numeric order of the integers. The lead byte names the class of the
number, and the classes stand in numeric order:

* `0x10 + n`: below `mediumMin`; the low `8 - n` bytes of the two's complement,
* `0x20` to `0x3f`: from `mediumMin`, with one more byte,
* `0x40` to `0x7f`: from `shortMin` to `-1`,
* `0x80` to `0xbf`: from `0` to `shortMax`,
* `0xc0` to `0xdf`: up to `mediumMax`, with one more byte,
* `0xe0 + n`: above `mediumMax`; `n` bytes of the distance from there.

Each class counts from its own lower end. All arithmetic is on `Nat` and
`Int`; the machine words appear only in the types of the encoders. -/
namespace OrderPack.Varint

/-- Greatest integer of one byte. -/
def shortMax : Nat := 63

/-- Greatest integer of the two-byte class. -/
def mediumMax : Nat := 8255

/-- Least integer of one byte. -/
def shortMin : Int := -64

/-- Least integer of the two-byte class. -/
def mediumMin : Int := -8256

/-- No encoding is longer: a lead byte and a whole machine word. -/
def maxLength : Nat := 9

/-- How many bytes the number takes in base 256; none for zero. -/
def byteLength (n : Nat) : Nat :=
  if n = 0 then 0 else byteLength (n / 256) + 1
termination_by n
decreasing_by omega

/-- How many numbers a row of so many bytes can spell. -/
def span : (count : Nat) → Nat
  | 0 => 1
  | count + 1 => 256 * span count

/-- The low `count` bytes of a number, the most significant first. -/
def bigEndian : (count : Nat) → (n : Nat) → List UInt8
  | 0, _ => []
  | count + 1, n => UInt8.ofNat (n / span count) :: bigEndian count n

/-- The number that a row of bytes spells, the most significant first. -/
def fromBigEndian (bytes : List UInt8) : Nat :=
  bytes.foldl (fun n byte => n * 256 + byte.toNat) 0

/-- Payload length of a number that lies `distance` past the two-byte class.
A distance of zero still takes a byte, since a bare lead byte would be shorter
than the encodings of smaller numbers. -/
def payloadLength (distance : Nat) : Nat := max 1 (byteLength distance)

/-- Encodes a number that is not negative. -/
def encodeNat (n : Nat) : List UInt8 :=
  if n ≤ shortMax then
    [UInt8.ofNat (0x80 + n)]
  else if n ≤ mediumMax then
    UInt8.ofNat (0xc0 + (n - 64) / 256) :: bigEndian 1 (n - 64)
  else
    let distance := n - 8256
    let length := payloadLength distance
    UInt8.ofNat (0xe0 + length) :: bigEndian length distance

/-- Encodes a negative number. In the longest class the lead byte counts the
leading `0xff` bytes that are dropped, so a smaller number has a smaller lead. -/
def encodeNegative (x : Int) : List UInt8 :=
  if x < mediumMin then
    let length := byteLength (-x - 1).toNat
    UInt8.ofNat (0x10 + (8 - length)) :: bigEndian length (span length + x).toNat
  else if x < shortMin then
    UInt8.ofNat (0x20 + (x - mediumMin).toNat / 256) :: bigEndian 1 (x - mediumMin).toNat
  else
    [UInt8.ofNat (0x40 + (x - shortMin).toNat)]

/-- Encodes an unsigned word. -/
def encodeUnsigned (x : UInt64) : List UInt8 := encodeNat x.toNat

/-- Encodes a signed word; what is not negative is written as if unsigned. -/
def encodeSigned (x : Int64) : List UInt8 :=
  if x.toInt < 0 then encodeNegative x.toInt else encodeNat x.toInt.toNat

/-- Length of the encoding of a number that is not negative. -/
def sizeNat (n : Nat) : Nat :=
  if n ≤ shortMax then 1
  else if n ≤ mediumMax + 1 then 2
  else 1 + byteLength (n - 8256)

/-- Length of an unsigned word's encoding, found without encoding it. -/
def sizeUnsigned (x : UInt64) : Nat := sizeNat x.toNat

/-- Length of a signed word's encoding, found without encoding it. -/
def sizeSigned (x : Int64) : Nat :=
  if x.toInt < mediumMin then 1 + byteLength (-x.toInt - 1).toNat
  else if x.toInt < shortMin then 2
  else if x.toInt < 0 then 1
  else sizeNat x.toInt.toNat

end OrderPack.Varint
