import SuiCash.Prover.WireLength

/-!
# The points of BN254

Both curves by their equations, the prime-order subgroups by the order, and the
compressed form of a point, as numbers: what `ark-bn254` documents of them, to run
the wire form on points that there are.

G1 has prime order, so every point on its curve is in the subgroup.  The twist has
not; there a point is in the subgroup when `r` times it is the point at infinity.
Multiples are taken in Jacobian coordinates, one doubling for each bit of `r`.
-/

namespace SuiCash.Prover.Bn254

open Bytes Fixture

/-! ### The quadratic extension -/

abbrev Fq := Fin q

/-- `c0 + c1 u`, where `u ^ 2 = -1`. -/
structure Fq2 where
  c0 : Fq
  c1 : Fq
  deriving DecidableEq

namespace Fq2

instance : Zero Fq2 := ⟨⟨0, 0⟩⟩

instance : One Fq2 := ⟨⟨1, 0⟩⟩

instance : Add Fq2 := ⟨fun a b => ⟨a.c0 + b.c0, a.c1 + b.c1⟩⟩

instance : Sub Fq2 := ⟨fun a b => ⟨a.c0 - b.c0, a.c1 - b.c1⟩⟩

instance : Mul Fq2 := ⟨fun a b => ⟨a.c0 * b.c0 - a.c1 * b.c1, a.c0 * b.c1 + a.c1 * b.c0⟩⟩

end Fq2

/-! ### The curves -/

def g1IsOnCurve (p : G1 Fq) : Bool := p.infinity || p.y * p.y == p.x * p.x * p.x + 3

def twistB : Fq2 where
  c0 := 19485874751759354771024239261021720505790618469301721065564631296452457478373
  c1 := 266929791119991161246907387137283842545076965332900288569378510910307636690

example : (⟨9, 1⟩ : Fq2) * twistB = ⟨3, 0⟩ := by decide +kernel

def g2IsOnCurve (p : G2 Fq) : Bool :=
  let x : Fq2 := ⟨p.x.1, p.x.2⟩
  let y : Fq2 := ⟨p.y.1, p.y.2⟩
  p.infinity || y * y == x * x * x + twistB

/-! ### Multiples on the twist -/

/-- Jacobian coordinates; `z = 0` is the point at infinity. -/
structure Jacobian where
  x : Fq2
  y : Fq2
  z : Fq2
  deriving DecidableEq

namespace Jacobian

def infinity : Jacobian := ⟨1, 1, 0⟩

def double (p : Jacobian) : Jacobian :=
  let a := p.x * p.x
  let b := p.y * p.y
  let c := b * b
  let d := (p.x + b) * (p.x + b) - a - c
  let e := a + a + a
  let x := e * e - (d + d + d + d)
  let c8 := c + c + c + c + c + c + c + c
  ⟨x, e * (d + d - x) - c8, (p.y + p.y) * p.z⟩

def addAffine (p : Jacobian) (x2 y2 : Fq2) : Jacobian :=
  if p.z = 0 then ⟨x2, y2, 1⟩
  else
    let zz := p.z * p.z
    let h := x2 * zz - p.x
    let w := y2 * (p.z * zz) - p.y
    if h = 0 then
      -- the same point, or the opposite one
      if w = 0 then p.double else infinity
    else
      let hh := h * h
      let hhh := h * hh
      let v := p.x * hh
      let x := w * w - hhh - (v + v)
      ⟨x, w * (v - x) - p.y * hhh, p.z * h⟩

/-- Double and add over the low `k` bits of `n`, top bit first. -/
def mulBits (x y : Fq2) (n : ℕ) : ℕ → Jacobian → Jacobian
  | 0, p => p
  | k + 1, p => mulBits x y n k (if n.testBit k then p.double.addAffine x y else p.double)

end Jacobian

/-- Whether `r` times the point is the point at infinity. -/
def g2IsInSubgroup (p : G2 Fq) : Bool :=
  p.infinity || (Jacobian.mulBits ⟨p.x.1, p.x.2⟩ ⟨p.y.1, p.y.2⟩ r 254 Jacobian.infinity).z = 0

/-! ### Compressed points -/

/-- The flags in the top bits of a point's last byte: at infinity, or on the larger of
the two `y`. -/
def flags (infinity larger : Bool) : UInt8 := if infinity then 0x40 else if larger then 0x80 else 0

def withFlags (f : Fq) (flags : UInt8) : List UInt8 :=
  let bytes := leBytes 32 f.val
  bytes.take 31 ++ (bytes.drop 31).map (· ||| flags)

def g1Compress (p : G1 Fq) : List UInt8 :=
  if p.infinity then withFlags 0 (flags true false)
  else withFlags p.x (flags false (-p.y < p.y))

/-- The coefficient of `u` decides which `y` is larger, and the other if that is zero. -/
def g2Compress (p : G2 Fq) : List UInt8 :=
  if p.infinity then leBytes 32 0 ++ withFlags 0 (flags true false)
  else leBytes 32 p.x.1.val
    ++ withFlags p.x.2 (flags false (-p.y.2 < p.y.2 ∨ -p.y.2 = p.y.2 ∧ -p.y.1 < p.y.1))

end Bn254

/-! ### The instance -/

open Bn254 in
/-- The curves of BN254 and the compressed form of a proof.  No pairing is asked for. -/
def bn254 : ArkGroth16 where
  Fq := Fq
  Vk := Unit
  fqDeserialize := Fixture.fqDeserialize
  fqSerialize f := Bytes.leBytes 32 f.val
  g1IsOnCurve := g1IsOnCurve
  g1IsInSubgroup _ := true
  g2IsOnCurve := g2IsOnCurve
  g2IsInSubgroup := g2IsInSubgroup
  proofSerialize p := some (g1Compress p.a ++ g2Compress p.b ++ g1Compress p.c)
  verifyWithProcessedVk _ _ _ := none

theorem bn254_fqStandard : bn254.FqStandard Fin.val where
  value_lt := Fixture.fqStandard.value_lt
  fqDeserialize_eq_some_iff := Fixture.fqStandard.fqDeserialize_eq_some_iff
  fqSerialize_eq := Fixture.fqStandard.fqSerialize_eq

namespace Bn254

def g1Generator : G1 Fq := ⟨1, 2, false⟩

def g2Generator : G2 Fq where
  x := (10857046999023057135944570762232829481370756359578518086990519993285655852781,
    11559732032986387107991004021392285783925812861821192530917403151452391805634)
  y := (8495653923123431417604973247489272438418190587263600148770280649306958101930,
    4082367875863433681332203403145435568316851327593401208105741076214120093531)
  infinity := false

def g1Identity : G1 Fq := ⟨0, 0, true⟩

theorem g1Generator_valid : g1IsOnCurve g1Generator = true := by decide

/-- The generator of the twist is on its curve, and has the order of the subgroup. -/
theorem g2Generator_valid :
    g2IsOnCurve g2Generator = true ∧ g2IsInSubgroup g2Generator = true := by decide +kernel

end Bn254

end SuiCash.Prover
