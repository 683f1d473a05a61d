import Marginalia.Text.Basic

/-!
# Encodings

The encodings that source files come in. An encoding reads all of the bytes or
refuses them; there is no telling how many encodings there are, so any way to do
so is one. Those that are made use of are given here. The encodings by units of
two and four bytes take the order of the bytes from a mark at the start, which is
no part of the text; without one the low byte comes first.
-/

namespace Marginalia

/-- An encoding of texts other than UTF-8. -/
structure Encoding where
  /-- The text of bytes, unless they are refused. -/
  decode? : List UInt8 → Option Text

namespace Encoding

/-! ## Units of more than one byte -/

/-- The number that bytes make, the high byte first. -/
def bigEndian (bytes : List UInt8) : Nat := bytes.foldl (fun n b => 256 * n + b.toNat) 0

/-- The units of `size` bytes that the bytes make up. -/
def units? (size : Nat) (lowFirst : Bool) (bytes : List UInt8) : Option (List Nat) :=
  if _h : size = 0 then none
  else if bytes = [] then some []
  else if bytes.length < size then none
  else do
    let first := bytes.take size
    let rest ← units? size lowFirst (bytes.drop size)
    return bigEndian (if lowFirst then first.reverse else first) :: rest
termination_by bytes.length
decreasing_by simp only [List.length_drop]; omega

/-- The units without the byte order mark, in the order of bytes it tells. -/
def markedUnits? (size : Nat) (bytes : List UInt8) : Option (List Nat) := do
  let padding : List UInt8 := List.replicate (size - 2) 0
  if bytes.take size = padding ++ [0xFE, 0xFF] then units? size false (bytes.drop size)
  else if bytes.take size = [0xFF, 0xFE] ++ padding then units? size true (bytes.drop size)
  else units? size true bytes

/-- The characters of units of 16 bits, two of which may make a surrogate pair. -/
def ofUnits16? : List Nat → Option Text
  | [] => some []
  | [n] => if 0xD800 ≤ n ∧ n ≤ 0xDFFF then none else some [Char.ofNat n]
  | n :: m :: rest =>
    if 0xD800 ≤ n ∧ n ≤ 0xDBFF then
      if 0xDC00 ≤ m ∧ m ≤ 0xDFFF then
        (ofUnits16? rest).map
          (Char.ofNat (0x10000 + (n - 0xD800) * 0x400 + (m - 0xDC00)) :: ·)
      else none
    else if 0xDC00 ≤ n ∧ n ≤ 0xDFFF then none
    else (ofUnits16? (m :: rest)).map (Char.ofNat n :: ·)

/-- The characters of code points. -/
def ofCodePoints? (codes : List Nat) : Option Text :=
  codes.mapM fun n => if n.isValidChar then some (Char.ofNat n) else none

/-! ## Single bytes -/

/-- The characters of the bytes from 0x80 to 0x9F in Windows-1252, of which five
    have none. -/
def windows1252Controls : List (Option Char) := [
  some '€', none, some '‚', some 'ƒ', some '„', some '…', some '†', some '‡',
  some 'ˆ', some '‰', some 'Š', some '‹', some 'Œ', none, some 'Ž', none,
  none, some '‘', some '’', some '“', some '”', some '•', some '–', some '—',
  some '˜', some '™', some 'š', some '›', some 'œ', none, some 'ž', some 'Ÿ']

/-- The character of a byte in Windows-1252. -/
def windows1252Char? (b : UInt8) : Option Char :=
  if 0x80 ≤ b.toNat ∧ b.toNat ≤ 0x9F then (windows1252Controls[b.toNat - 0x80]?).join
  else some (Char.ofNat b.toNat)

/-- The text of bytes in Windows-1252, with the replacement character for those
    without a character of their own. -/
def replacing1252 (bytes : List UInt8) : Text :=
  bytes.map fun b => (windows1252Char? b).getD '\uFFFD'

/-! ## Some encodings -/

def utf16 : Encoding := ⟨fun bytes => markedUnits? 2 bytes >>= ofUnits16?⟩

def utf32 : Encoding := ⟨fun bytes => markedUnits? 4 bytes >>= ofCodePoints?⟩

def windows1252 : Encoding := ⟨fun bytes => bytes.mapM windows1252Char?⟩

def latin1 : Encoding := ⟨fun bytes => some (bytes.map fun b => Char.ofNat b.toNat)⟩

def ascii : Encoding :=
  ⟨fun bytes => bytes.mapM fun b => if b.toNat < 0x80 then some (Char.ofNat b.toNat) else none⟩

/-! ## Source files -/

/-- The text of bytes in UTF-8. -/
def decodeUtf8? (bytes : ByteArray) : Option Text := (String.fromUTF8? bytes).map (·.toList)

/-- The bytes of a text in UTF-8. -/
def encodeUtf8 (text : Text) : ByteArray := (String.ofList text).toUTF8

/-- A guess at the encoding of bytes. -/
abbrev Detector := ByteArray → Option Encoding

/-- The guess that goes by a byte order mark at the start. -/
def byMark : Detector := fun bytes =>
  let start := (bytes.data.toList).take 4
  if start = [0xFF, 0xFE, 0, 0] ∨ start = [0, 0, 0xFE, 0xFF] then some utf32
  else if start.take 2 = [0xFF, 0xFE] ∨ start.take 2 = [0xFE, 0xFF] then some utf16
  else none

/-- The text of a source file: read as UTF-8 or else as the encoding it is taken
    for, which may refuse it. Bytes taken for nothing are read as Windows-1252. -/
def decodeSource? (detect : Detector) (bytes : ByteArray) : Option Text :=
  match decodeUtf8? bytes with
  | some text => some text
  | none =>
    match detect bytes with
    | some encoding => encoding.decode? bytes.data.toList
    | none => some (replacing1252 bytes.data.toList)

end Encoding

end Marginalia
