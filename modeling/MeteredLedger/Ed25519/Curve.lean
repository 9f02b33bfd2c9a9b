import MeteredLedger.Bytes

/-!
# The curve edwards25519

Points of the twisted Edwards curve `-x² + y² = 1 + d x² y²` over the integers modulo `2²⁵⁵ - 19`, in
extended coordinates. The addition law is complete, so it also doubles, and multiples come from one
double-and-add pass over the bits of the scalar.
-/

namespace MeteredLedger.Ed25519

def prime : Nat := (1 <<< 255) - 19

def order : Nat := (1 <<< 252) + 27742317777372353535851937790883648493

instance : @NeZero Nat Zero.ofOfNat0 prime := ⟨by decide⟩

/-- A residue modulo the characteristic: an element of the field. -/
abbrev Residue := Fin prime

/-- The `n`-fold combination of `a` under an associative operation, for `n` below `2 ^ 256`. -/
def multiple {α : Type} (op : α → α → α) (unit : α) (n : Nat) (a : α) : α :=
  (List.range 256).foldl
    (fun acc i =>
      let twice := op acc acc
      if n.testBit (255 - i) then op twice a else twice)
    unit

namespace Residue

def ofNat (n : Nat) : Residue := Fin.ofNat prime n

def pow (a : Residue) (n : Nat) : Residue := multiple (· * ·) 1 n a

/-- The inverse of a field element, and zero for zero. -/
def inv (a : Residue) : Residue := pow a (prime - 2)

def sqrtMinusOne : Residue := pow 2 ((prime - 1) / 4)

/-- The even square root of `u / v`, if there is one. -/
def sqrtRatio? (u v : Residue) : Option Residue :=
  let r := u * v * v * v * pow (u * v * v * v * v * v * v * v) ((prime - 5) / 8)
  let check := v * r * r
  let root? := if check = u then some r else if check = 0 - u then some (r * sqrtMinusOne) else none
  root?.map fun r => if r.val % 2 = 0 then r else 0 - r

end Residue

def coefficient : Residue := (0 - 121665) * Residue.inv 121666

/-- A point `(x / z, y / z)` of the curve, with `t / z` the product of both coordinates. -/
structure Point where
  x : Residue
  y : Residue
  z : Residue
  t : Residue

namespace Point

def zero : Point := ⟨0, 1, 1, 0⟩

def add (p q : Point) : Point :=
  let a := (p.y - p.x) * (q.y - q.x)
  let b := (p.y + p.x) * (q.y + q.x)
  let c := p.t * q.t * (2 * coefficient)
  let d := 2 * p.z * q.z
  let e := b - a
  let f := d - c
  let g := d + c
  let h := b + a
  ⟨e * f, g * h, f * g, e * h⟩

def neg (p : Point) : Point := ⟨0 - p.x, p.y, p.z, 0 - p.t⟩

def smul (n : Nat) (p : Point) : Point := multiple add zero n p

/-- The number that spells a point: the second coordinate, and the parity of the first one above
it. -/
def encode (p : Point) : Nat :=
  let zi := Residue.inv p.z
  let x := p.x * zi
  let y := p.y * zi
  y.val + (x.val % 2) <<< 255

/-- The point that a number below `2 ^ 256` spells. The second coordinate counts modulo the
characteristic, and the sign of a zero first coordinate is ignored. -/
def decode? (n : Nat) : Option Point :=
  let y := Residue.ofNat (n % (1 <<< 255))
  let u := y * y - 1
  let v := coefficient * y * y + 1
  (Residue.sqrtRatio? u v).map fun r =>
    let x := if n.testBit 255 then 0 - r else r
    ⟨x, y, 1, x * y⟩

/-- The base point: its second coordinate is four fifths and its first one is even. -/
def base : Point := (decode? (4 * Residue.inv 5).val).getD zero

end Point

end MeteredLedger.Ed25519
