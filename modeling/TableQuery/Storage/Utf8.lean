/-! Bytes read as UTF-8 text. -/
namespace TableQuery.Utf8

/-- How many bytes from a position on hold whole characters, up to the first that do not. -/
def validUpTo (bytes : ByteArray) (start : Nat) : Nat :=
  match found : bytes.utf8DecodeChar? start with
  | some c =>
    have : start < bytes.size := ByteArray.lt_size_of_isSome_utf8DecodeChar? (by simp [found])
    have := c.utf8Size_pos
    validUpTo bytes (start + c.utf8Size)
  | none => start
termination_by bytes.size - start

/-- The text of some bytes, or the position where they stop being text. -/
def decode (bytes : List UInt8) : Except Nat String :=
  let packed : ByteArray := ⟨bytes.toArray⟩
  match String.fromUTF8? packed with
  | some s => .ok s
  | none => .error (validUpTo packed 0)

end TableQuery.Utf8
