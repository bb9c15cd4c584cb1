import Mathlib.Tactic.Common

/-!
# UTF-8 validity of byte strings

`validUtf8` decides whether a list of bytes is the UTF-8 encoding of some string:
no overlong forms, no surrogates and no code point above `0x10FFFF`. A `Utf8` is a
byte string together with the fact that it is valid.
-/

namespace Mqttrust

/-- A byte of the form `10xxxxxx`. -/
def isContinuation (byte : UInt8) : Bool := 0x80 ≤ byte && byte ≤ 0xBF

/-- The second byte of a three-byte sequence must rule out overlong forms and surrogates. -/
def secondOfThree (first second : UInt8) : Bool :=
  if first == 0xE0 then 0xA0 ≤ second && second ≤ 0xBF
  else if first == 0xED then 0x80 ≤ second && second ≤ 0x9F
  else 0xE1 ≤ first && first ≤ 0xEF && isContinuation second

/-- The second byte of a four-byte sequence must rule out overlong forms and code points above
`0x10FFFF`. -/
def secondOfFour (first second : UInt8) : Bool :=
  if first == 0xF0 then 0x90 ≤ second && second ≤ 0xBF
  else if first == 0xF4 then 0x80 ≤ second && second ≤ 0x8F
  else 0xF1 ≤ first && first ≤ 0xF3 && isContinuation second

/-- Whether the bytes are valid UTF-8. -/
def validUtf8 : List UInt8 → Bool
  | [] => true
  | first :: rest =>
      if first < 0x80 then validUtf8 rest
      else
        match rest with
        | [] => false
        | second :: rest =>
            if 0xC2 ≤ first && first ≤ 0xDF then isContinuation second && validUtf8 rest
            else
              match rest with
              | [] => false
              | third :: rest =>
                  if first ≤ 0xEF then
                    secondOfThree first second && isContinuation third && validUtf8 rest
                  else
                    match rest with
                    | [] => false
                    | fourth :: rest =>
                        secondOfFour first second && isContinuation third &&
                          isContinuation fourth && validUtf8 rest

/-- A valid UTF-8 byte string. -/
@[ext]
structure Utf8 where
  bytes : List UInt8
  valid : validUtf8 bytes = true

namespace Utf8

instance : DecidableEq Utf8 := fun left right =>
  decidable_of_iff (left.bytes = right.bytes) Utf8.ext_iff.symm

/-- The bytes as a string, if they are valid. -/
def ofBytes? (bytes : List UInt8) : Option Utf8 :=
  if valid : validUtf8 bytes = true then some ⟨bytes, valid⟩ else none

@[simp]
theorem ofBytes?_bytes (text : Utf8) : ofBytes? text.bytes = some text := by
  simp [ofBytes?, text.valid]

theorem bytes_of_ofBytes? {bytes : List UInt8} {text : Utf8}
    (found : ofBytes? bytes = some text) : text.bytes = bytes := by
  unfold ofBytes? at found
  split at found
  · simp only [Option.some.injEq] at found
    exact found ▸ rfl
  · simp at found

end Utf8

end Mqttrust
