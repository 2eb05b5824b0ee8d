/-!
Real numbers from digits, in two roundings. As many digits as fit a 64-bit word are kept and
the others only count as powers of ten; the word is rounded to a number, and that number is
multiplied with or divided by the power of ten.
-/

namespace SeqStore.Decimal

/-- Read digits on top of `word` for as long as the word has room. The second component is
the number of digits that were left out. -/
def intoWord (word : UInt64) : List Char → UInt64 × Nat
  | [] => (word, 0)
  | c :: cs =>
      let grown := 10 * word.toNat + (c.toNat - '0'.toNat)
      if grown < UInt64.size then intoWord grown.toUInt64 cs else (word, cs.length + 1)

/-- The number nearest to ten to the power of `k`. -/
def powerOfTen (k : Nat) : Float := Float.ofScientific 1 false k

/-- `word · 10^exponent`, or nothing if that is beyond all numbers. No power of ten beyond the
308th is a number, so a smaller divisor is taken in two steps; after two of them nothing is
left of any word. -/
def scaled? (word : UInt64) (exponent : Int) : Option Float :=
  if word = 0 then some 0.0
  else match exponent with
    | .ofNat k =>
        let x := word.toFloat * powerOfTen k
        if 308 < k ∨ x.isInf then none else some x
    | .negSucc k =>
        if k + 1 ≤ 308 then some (word.toFloat / powerOfTen (k + 1))
        else if k + 1 ≤ 616 then some (word.toFloat / powerOfTen 308 / powerOfTen (k + 1 - 308))
        else some 0.0

end SeqStore.Decimal
