/-!
# Reading bytes as text

Text is written as UTF-8.  `decode?` reads bytes that are UTF-8 and refuses all
others.  `decodeLossy` reads any bytes: each longest piece that begins a
character but does not finish it, and each byte that begins none, is read as the
replacement character U+FFFD.
-/

namespace SymbolIndex

namespace Text

def decode? (bytes : ByteArray) : Option String :=
  String.fromUTF8? bytes

def replacement : Char := '\ufffd'

def isContinuation (b : UInt8) : Bool :=
  0x80 ≤ b && b ≤ 0xBF

/-- The second bytes that may follow the first byte of a three-byte character. -/
def followsThree (first second : UInt8) : Bool :=
  if first == 0xE0 then 0xA0 ≤ second && second ≤ 0xBF
  else if first == 0xED then 0x80 ≤ second && second ≤ 0x9F
  else isContinuation second

/-- The second bytes that may follow the first byte of a four-byte character. -/
def followsFour (first second : UInt8) : Bool :=
  if first == 0xF0 then 0x90 ≤ second && second ≤ 0xBF
  else if first == 0xF4 then 0x80 ≤ second && second ≤ 0x8F
  else isContinuation second

/-- The number that the low bits of continuation bytes add to a first byte's. -/
def extend (high : Nat) (b : UInt8) : Nat :=
  high * 64 + (b.toNat - 0x80)

/-- The characters of a list of bytes, reading what is not UTF-8 as the
replacement character. -/
def decodeLossyChars : List UInt8 → List Char
  | [] => []
  | first :: rest =>
    if first < 0x80 then
      Char.ofNat first.toNat :: decodeLossyChars rest
    else if 0xC2 ≤ first && first ≤ 0xDF then
      match rest with
      | second :: rest' =>
        if isContinuation second then
          Char.ofNat (extend (first.toNat - 0xC0) second) :: decodeLossyChars rest'
        else replacement :: decodeLossyChars (second :: rest')
      | [] => [replacement]
    else if 0xE0 ≤ first && first ≤ 0xEF then
      match rest with
      | second :: third :: rest' =>
        if !followsThree first second then
          replacement :: decodeLossyChars (second :: third :: rest')
        else if !isContinuation third then
          replacement :: decodeLossyChars (third :: rest')
        else
          Char.ofNat (extend (extend (first.toNat - 0xE0) second) third) ::
            decodeLossyChars rest'
      | [second] =>
        if followsThree first second then [replacement]
        else replacement :: decodeLossyChars [second]
      | [] => [replacement]
    else if 0xF0 ≤ first && first ≤ 0xF4 then
      match rest with
      | second :: third :: fourth :: rest' =>
        if !followsFour first second then
          replacement :: decodeLossyChars (second :: third :: fourth :: rest')
        else if !isContinuation third then
          replacement :: decodeLossyChars (third :: fourth :: rest')
        else if !isContinuation fourth then
          replacement :: decodeLossyChars (fourth :: rest')
        else
          Char.ofNat
              (extend (extend (extend (first.toNat - 0xF0) second) third) fourth) ::
            decodeLossyChars rest'
      | [second, third] =>
        if !followsFour first second then replacement :: decodeLossyChars [second, third]
        else if isContinuation third then [replacement]
        else replacement :: decodeLossyChars [third]
      | [second] =>
        if followsFour first second then [replacement]
        else replacement :: decodeLossyChars [second]
      | [] => [replacement]
    else replacement :: decodeLossyChars rest

/-- The text of any bytes, reading what is not UTF-8 as the replacement
character. -/
def decodeLossy (bytes : ByteArray) : String :=
  String.ofList (decodeLossyChars bytes.data.toList)

/-- Written text is read back. -/
theorem decode?_toUTF8 (s : String) : decode? s.toUTF8 = some s := by
  unfold decode? String.fromUTF8?
  split
  · rfl
  · rename_i invalid
    exact absurd s.isValidUTF8 invalid

end Text

end SymbolIndex
