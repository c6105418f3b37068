/-!
# Units

Hit points, shield levels and amounts of material are counted in 32-bit words.  Where a count would
leave their range it stops at the end of it: `plus` at the largest word, `minus` at zero.
-/

namespace Orrery.Units

/-- The largest count. -/
def largest : UInt32 := 0xFFFFFFFF

/-- The sum, or the largest count if the sum exceeds it. -/
def plus (a b : UInt32) : UInt32 := if a ≤ largest - b then a + b else largest

/-- The difference, or zero if `b` exceeds `a`. -/
def minus (a b : UInt32) : UInt32 := if b ≤ a then a - b else 0

/-- The smaller count. -/
def least (a b : UInt32) : UInt32 := if a ≤ b then a else b

/-- The larger count. -/
def greatest (a b : UInt32) : UInt32 := if a ≤ b then b else a

/-- The sum of a list of counts, or the largest count if the sum exceeds it. -/
def total (counts : List UInt32) : UInt32 := counts.foldl plus 0

end Orrery.Units
