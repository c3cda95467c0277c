/-!
# Doubles as words

A double is a word of sixty-four bits. Two words may stand for the same thing: what is not a number
has many words, with a sign and a payload each, and `Float` keeps one of them. A field holds the
word, so that nothing of it is lost where it is stored, and is a `Float` where it is compared or
shown.
-/

namespace SeriesLoad

/-- A double, by its bits. -/
structure Binary64 where
  bits : UInt64
deriving DecidableEq

namespace Binary64

/-- What a word stands for. -/
@[coe] def toFloat (x : Binary64) : Float := Float.ofBits x.bits

/-- The word of a double. -/
@[coe] def ofFloat (x : Float) : Binary64 := ⟨x.toBits⟩

instance : Coe Float Binary64 := ⟨ofFloat⟩

instance : CoeOut Binary64 Float := ⟨toFloat⟩

end Binary64

end SeriesLoad
