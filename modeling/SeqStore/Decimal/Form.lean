import SeqStore.Decimal.Shortest
import SeqStore.Text.Integer

/-!
Real numbers as text. A `Form` decides which decimal stands for a number when two are
equally near, for which decimals the digits are written around a point and for which an
exponent is used, whether a whole number keeps a point and whether a positive exponent has a
sign.
-/

namespace SeqStore.Decimal

structure Form where
  tie : Tie
  /-- Positions of the point, counted from the first digit, that are written out; all of
  them if there is no range. -/
  pointRange : Option (Int × Int)
  /-- A whole number ends in `.0`. -/
  keepPoint : Bool
  /-- An exponent that is not negative has a plus sign. -/
  plusExponent : Bool

def Form.writesOut (f : Form) (point : Int) : Bool :=
  match f.pointRange with
  | none => true
  | some (least, most) => decide (least ≤ point ∧ point ≤ most)

private def zeros (n : Nat) : String := String.ofList (List.replicate n '0')

/-- All digits on the two sides of a point. -/
def positional (d : Decimal) (keepPoint : Bool) : String :=
  let ds := Nat.toDigits 10 d.digits
  match d.exponent, d.exponent + ds.length with
  | .ofNat k, _ => String.ofList ds ++ zeros k ++ if keepPoint then ".0" else ""
  | .negSucc _, .ofNat 0 => "0." ++ String.ofList ds
  | .negSucc _, .ofNat point =>
      String.ofList (ds.take point) ++ "." ++ String.ofList (ds.drop point)
  | .negSucc _, .negSucc k => "0." ++ zeros (k + 1) ++ String.ofList ds

/-- One digit before the point, and the exponent. -/
def scientific (d : Decimal) (plusExponent : Bool) : String :=
  let ds := Nat.toDigits 10 d.digits
  let fraction := if ds.length = 1 then "" else "." ++ String.ofList (ds.drop 1)
  let exponent := d.exponent + ds.length - 1
  let plus := if plusExponent ∧ 0 ≤ exponent then "+" else ""
  String.ofList (ds.take 1) ++ fraction ++ "e" ++ plus ++ Text.integer exponent

def Form.magnitude (f : Form) (d : Decimal) : String :=
  if d.digits = 0 ∨ f.writesOut (d.exponent + (Nat.toDigits 10 d.digits).length) then
    d.positional f.keepPoint
  else d.scientific f.plusExponent

/-- A number in a form; what is no number and what is infinite have names. -/
def Form.text (f : Form) (x : Float) : String :=
  if x.isNaN then "NaN"
  else
    let bits := x.toBits
    let sign := if bits >>> 63 = 1 then "-" else ""
    sign ++ if x.isInf then "inf" else f.magnitude (ofBits f.tie bits)

/-- Display texts write every number out and drop an empty fraction. -/
def display : Form where
  tie := .up
  pointRange := none
  keepPoint := false
  plusExponent := false

/-- Debug texts write out from a ten-thousandth to below ten to the sixteenth. -/
def debug : Form where
  tie := .up
  pointRange := some (-3, 16)
  keepPoint := true
  plusExponent := false

/-- JSON texts write out from a hundred-thousandth to below ten to the sixteenth, and an
exponent always has a sign. -/
def json : Form where
  tie := .even
  pointRange := some (-4, 16)
  keepPoint := true
  plusExponent := true

end SeqStore.Decimal
