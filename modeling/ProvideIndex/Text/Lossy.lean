/-!
# Decoding bytes that may be no text

Bytes are decoded as UTF-8. Where a character breaks off, the bytes that could still have begun one
are together replaced by the replacement character, and so is each byte that cannot begin one.
-/

namespace ProvideIndex.Text.Lossy

/-- A character that has begun. -/
structure Unfinished where
  code : Nat
  /-- How many bytes are still missing. -/
  missing : Nat
  /-- The range of the next byte. -/
  least : Nat
  most : Nat
  deriving DecidableEq, Repr

def replacement : Char := '\ufffd'

/-- What a byte between characters brings: characters, or the beginning of one. -/
def start (byte : Nat) : List Char × Option Unfinished :=
  if byte < 0x80 then ([Char.ofNat byte], none)
  else if byte < 0xc2 then ([replacement], none)
  else if byte < 0xe0 then ([], some ⟨byte - 0xc0, 1, 0x80, 0xbf⟩)
  else if byte = 0xe0 then ([], some ⟨0, 2, 0xa0, 0xbf⟩)
  else if byte = 0xed then ([], some ⟨0xd, 2, 0x80, 0x9f⟩)
  else if byte < 0xf0 then ([], some ⟨byte - 0xe0, 2, 0x80, 0xbf⟩)
  else if byte = 0xf0 then ([], some ⟨0, 3, 0x90, 0xbf⟩)
  else if byte < 0xf4 then ([], some ⟨byte - 0xf0, 3, 0x80, 0xbf⟩)
  else if byte = 0xf4 then ([], some ⟨4, 3, 0x80, 0x8f⟩)
  else ([replacement], none)

def step (state : Option Unfinished) (byte : Nat) : List Char × Option Unfinished :=
  match state with
  | none => start byte
  | some p =>
    if p.least ≤ byte ∧ byte ≤ p.most then
      let code := 64 * p.code + (byte - 0x80)
      if p.missing ≤ 1 then ([Char.ofNat code], none)
      else ([], some ⟨code, p.missing - 1, 0x80, 0xbf⟩)
    else
      let (characters, next) := start byte
      (replacement :: characters, next)

def decodeFrom (state : Option Unfinished) : List UInt8 → List Char
  | [] => if state.isSome then [replacement] else []
  | byte :: bytes =>
    let (characters, next) := step state byte.toNat
    characters ++ decodeFrom next bytes

def decode (bytes : List UInt8) : String := String.ofList (decodeFrom none bytes)

end ProvideIndex.Text.Lossy
