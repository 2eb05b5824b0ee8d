/-!
Shortest decimals. A finite binary number m·2^q is the one that all reals of an interval
around it round to; its shortest decimal is the one of fewest digits in that interval, and
of those the nearest to it. Where two are equally near, a `Tie` decides. All arithmetic is
exact.
-/

namespace SeqStore

/-- The number `digits · 10^exponent`. -/
structure Decimal where
  digits : Nat
  exponent : Int
  deriving DecidableEq, Repr

namespace Decimal

/-- Which of two equally near decimals is taken: the larger, or the one with the even last
digit. -/
inductive Tie where
  | up
  | even
  deriving DecidableEq, Repr

/-- A binary number and the ends of the interval that rounds to it, over one denominator.
The ends belong to the interval when `closed`. -/
structure Interval where
  low : Nat
  mid : Nat
  high : Nat
  denominator : Nat
  closed : Bool

namespace Interval

/-- The interval around `m · 2^q`. Below a power of two the next number is only half as far
away, which `narrow` says. -/
def around (m : Nat) (q : Int) (narrow : Bool) : Interval :=
  let low := if narrow then 4 * m - 1 else 4 * m - 2
  let closed := m % 2 == 0
  match q - 2 with
  | .ofNat k =>
      let f := Nat.pow 2 k
      ⟨low * f, 4 * m * f, (4 * m + 2) * f, 1, closed⟩
  | .negSucc k => ⟨low, 4 * m, 4 * m + 2, Nat.pow 2 (k + 1), closed⟩

/-- The interval in units of `10^e`. -/
def scale (i : Interval) : Int → Interval
  | .ofNat k => { i with denominator := i.denominator * Nat.pow 10 k }
  | .negSucc k =>
      let f := Nat.pow 10 (k + 1)
      { i with low := i.low * f, mid := i.mid * f, high := i.high * f }

def mem (i : Interval) (n : Nat) : Bool :=
  let x := n * i.denominator
  if i.closed then decide (i.low ≤ x ∧ x ≤ i.high) else decide (i.low < x ∧ x < i.high)

/-- Of the whole numbers next to the middle the nearest in the interval. -/
def nearest? (i : Interval) (tie : Tie) : Option Nat :=
  let below := i.mid / i.denominator
  let above := below + 1
  match i.mem below, i.mem above with
  | true, true =>
      let down := i.mid - below * i.denominator
      let up := above * i.denominator - i.mid
      if down < up ∨ (down = up ∧ tie = .even ∧ below % 2 = 0) then some below else some above
  | true, false => some below
  | false, true => some above
  | false, false => none

/-- An exponent of ten above the middle. -/
def magnitude (i : Interval) : Int :=
  if i.denominator ≤ i.mid then (Nat.toDigits 10 (i.mid / i.denominator)).length
  else 2 - ((Nat.toDigits 10 (i.denominator / i.mid)).length : Int)

/-- Try the grids of `10^e`, `10^(e-1)` and so on, the coarsest first. -/
def scan (i : Interval) (tie : Tie) (e : Int) : Nat → Decimal
  | 0 => ⟨(i.scale e).mid / (i.scale e).denominator, e⟩
  | grids + 1 =>
      match (i.scale e).nearest? tie with
      | some digits => ⟨digits, e⟩
      | none => i.scan tie (e - 1) grids

end Interval

/-- The shortest decimal of `m · 2^q`. Seventeen digits tell all numbers of 53 bits apart, so
the scan ends in time. -/
def shortest (tie : Tie) (m : Nat) (q : Int) (narrow : Bool) : Decimal :=
  if m = 0 then ⟨0, 0⟩
  else
    let i := Interval.around m q narrow
    i.scan tie i.magnitude 20

/-- The magnitude of a finite number in 64 bits, as its shortest decimal. -/
def ofBits (tie : Tie) (bits : UInt64) : Decimal :=
  let fraction := (bits &&& 0xfffffffffffff).toNat
  let exponent := (bits >>> 52 &&& 0x7ff).toNat
  if exponent = 0 then shortest tie fraction (-1074) false
  else
    shortest tie (0x10000000000000 + fraction) ((exponent : Int) - 1075)
      (fraction = 0 && 1 < exponent)

end Decimal

end SeqStore
