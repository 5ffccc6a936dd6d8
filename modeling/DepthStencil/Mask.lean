/-! # Bit masks

Pipeline stages and kinds of memory access are sets of bits in a 64-bit word.  Bits without a
name in this library are carried along unchanged. -/

namespace DepthStencil

/-- A set of bits in a 64-bit word. -/
abbrev Mask := UInt64

/-- Whether every bit of `n` is set in `m`. -/
def Mask.contains (m n : Mask) : Bool := m &&& n == n

/-- Whether every bit of `m` is set in `n`. -/
def Mask.within (m n : Mask) : Bool := m &&& ~~~n == 0

end DepthStencil
