/-! # Hexadecimal numerals -/

namespace DepthStencil

/-- A number in lower-case hexadecimal digits after `0x`. -/
def hex (n : Nat) : String := "0x" ++ String.ofList (Nat.toDigits 16 n)

end DepthStencil
