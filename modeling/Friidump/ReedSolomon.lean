import Friidump.Memory

/-!
# Reed-Solomon code

The shortened code of `rs.c` over the field of 256 elements: 172 data bytes and 10
bytes of parity, without erasures as every caller has it. Tables and local arrays
are lists of natural numbers; no character in them exceeds 255.
-/

set_option autoImplicit false

namespace Friidump

/-! ## Tables -/

structure GfTables where
  alphaTo : List Nat
  indexOf : List Nat

/-- `1+x^2+x^3+x^4+x^8`. -/
def pp : List Nat := [1, 0, 1, 1, 1, 0, 0, 0, 1]

/-- The loop over the powers below `mm`, with the rounds left; at its end also `mask`. -/
def lowPowers : Nat → Nat → Nat → GfTables → GfTables × Nat
  | 0, _, mask, t => (t, mask)
  | left + 1, i, mask, t =>
      let alphaTo := t.alphaTo.set i mask
      let indexOf := t.indexOf.set (alphaTo.getD i 0) i
      let alphaTo :=
        if pp.getD i 0 ≠ 0 then alphaTo.set 8 (alphaTo.getD 8 0 ^^^ mask) else alphaTo
      lowPowers left (i + 1) (mask <<< 1) { alphaTo := alphaTo, indexOf := indexOf }

/-- The loop over the other powers, with the rounds left. -/
def highPowers (mask : Nat) : Nat → Nat → GfTables → GfTables
  | 0, _, t => t
  | left + 1, i, t =>
      let last := t.alphaTo.getD (i - 1) 0
      let power :=
        if mask ≤ last then t.alphaTo.getD 8 0 ^^^ ((last ^^^ mask) <<< 1) else last <<< 1
      highPowers mask left (i + 1)
        { alphaTo := t.alphaTo.set i power, indexOf := t.indexOf.set power i }

def generateGf : GfTables :=
  let (t, mask) :=
    lowPowers 8 0 1 { alphaTo := List.replicate 256 0, indexOf := List.replicate 256 0 }
  let t := { t with indexOf := t.indexOf.set (t.alphaTo.getD 8 0) 8 }
  let t := highPowers (mask >>> 1) 246 9 t
  { t with indexOf := t.indexOf.set 0 255 }

def alphaTo (i : Nat) : Nat := generateGf.alphaTo.getD i 0

def indexOf (i : Nat) : Nat := generateGf.indexOf.getD i 0

/-- A round takes away at least 255, so `x` of them are enough. The shift `x >> 0xff` is 0. -/
def modnnLoop : Nat → Nat → Nat
  | 0, x => x
  | rounds + 1, x => if 255 ≤ x then modnnLoop rounds ((x - 255) &&& 0xff) else x

def modnn (x : Nat) : Nat := modnnLoop x x

/-! ## Encoding -/

/-- The loop over `j`, down from its argument. -/
def genPolyInner (root : Nat) : Nat → List Nat → List Nat
  | 0, gg => gg
  | j + 1, gg =>
      let entry := gg.getD (j + 1) 0
      let below := gg.getD j 0
      genPolyInner root j (gg.set (j + 1)
        (if entry ≠ 0 then below ^^^ alphaTo (modnn (indexOf entry + root)) else below))

/-- The loop over `i`, with the rounds left; `root` is `i`. -/
def genPolyLoop : Nat → Nat → List Nat → List Nat
  | 0, _, gg => gg
  | left + 1, i, gg =>
      let gg := genPolyInner i i (gg.set (i + 1) 1)
      genPolyLoop left (i + 1) (gg.set 0 (alphaTo (modnn (indexOf (gg.getD 0 0) + i))))

/-- `gg` in index form. -/
def genPoly : List Nat :=
  (genPolyLoop 10 0 ((List.replicate 11 0).set 0 1)).map indexOf

/-- A round of the loop over `i`; the shift has moved into it. -/
def encodeByte (bb : List UInt8) (byte : UInt8) : List UInt8 :=
  let feedback := indexOf (byte ^^^ bb.getD 0 0).toNat
  if feedback ≠ 255 then
    (List.range 9).map (fun j =>
      bb.getD (j + 1) 0 ^^^ (alphaTo (modnn (feedback + genPoly.getD (9 - j) 0))).toUInt8) ++
        [(alphaTo (modnn (feedback + genPoly.getD 0 0))).toUInt8]
  else bb.drop 1 ++ [0]

/-- `bb` after the call. -/
def rsEncode (data : Buffer) : List UInt8 :=
  (List.range 172).foldl (fun bb i => encodeByte bb (data i)) (List.replicate 10 0)

/-! ## Decoding -/

def syndromeStep (i s : Nat) (byte : UInt8) : Nat :=
  if s = 0 then byte.toNat else byte.toNat ^^^ alphaTo (modnn (indexOf s + i))

def syndrome (data : Buffer) (i : Nat) : Nat :=
  (List.range 181).foldl (fun s j => syndromeStep i s (data (j + 1))) (data 0).toNat

/-- The syndromes in poly form. -/
def formSyndromes (data : Buffer) : List Nat := (List.range 10).map (syndrome data)

/-- `lambda` in poly form, `b` in index form. -/
structure Registers where
  lambda : List Nat
  b : List Nat
  el : Nat

/-- The discrepancy at step `r` in poly form. -/
def discrepancy (s lambda : List Nat) (r : Nat) : Nat :=
  (List.range r).foldl (fun discr i =>
    if lambda.getD i 0 ≠ 0 ∧ s.getD (r - i - 1) 0 ≠ 255 then
      discr ^^^ alphaTo (modnn (indexOf (lambda.getD i 0) + s.getD (r - i - 1) 0))
    else discr) 0

/-- `B(x) <-- x*B(x)`. -/
def shiftUp (b : List Nat) : List Nat := 255 :: b.take 10

/-- `T(x) <-- lambda(x) - discr_r*x*b(x)`. -/
def corrected (lambda b : List Nat) (discr : Nat) : List Nat :=
  lambda.getD 0 0 :: (List.range 10).map fun i =>
    if b.getD i 0 ≠ 255 then lambda.getD (i + 1) 0 ^^^ alphaTo (modnn (discr + b.getD i 0))
    else lambda.getD (i + 1) 0

/-- `B(x) <-- inv(discr_r) * lambda(x)`. -/
def scaled (lambda : List Nat) (discr : Nat) : List Nat :=
  lambda.map fun entry => if entry = 0 then 255 else modnn (indexOf entry + 255 - discr)

def berlekampStep (s : List Nat) (r : Nat) (reg : Registers) : Registers :=
  let discr := indexOf (discrepancy s reg.lambda r)
  if discr = 255 then { reg with b := shiftUp reg.b }
  else if 2 * reg.el ≤ r - 1 then
    { lambda := corrected reg.lambda reg.b discr
      b := scaled reg.lambda discr
      el := r - reg.el }
  else { lambda := corrected reg.lambda reg.b discr, b := shiftUp reg.b, el := reg.el }

/-- The loop over `r`, with the rounds left. -/
def berlekampMassey (s : List Nat) : Nat → Nat → Registers → Registers
  | 0, _, reg => reg
  | left + 1, r, reg => berlekampMassey s left (r + 1) (berlekampStep s (r + 1) reg)

def Registers.start : Registers :=
  let lambda := (List.replicate 11 0).set 0 1
  { lambda := lambda, b := lambda.map indexOf, el := 0 }

/-- Here `lambda` is in index form. -/
def degLambda (lambda : List Nat) : Nat :=
  (List.range 11).foldl (fun deg i => if lambda.getD i 0 ≠ 255 then i else deg) 0

/-- The loop over `j`, down from its argument. -/
def chienStep : Nat → List Nat → Nat → List Nat × Nat
  | 0, reg, q => (reg, q)
  | j + 1, reg, q =>
      let entry := reg.getD (j + 1) 0
      if entry ≠ 255 then
        let index := modnn (entry + (j + 1))
        chienStep j (reg.set (j + 1) index) (q ^^^ alphaTo index)
      else chienStep j reg q

structure Root where
  root : Nat
  loc : Nat

/-- The loop over `i`, with the rounds left and the roots found. -/
def chienSearch (deg : Nat) : Nat → Nat → Nat → List Nat → List Root → List Root
  | 0, _, _, _, found => found
  | left + 1, i, k, reg, found =>
      let (reg, q) := chienStep deg reg 1
      if q ≠ 0 then chienSearch deg left (i + 1) (modnn (k + 1)) reg found
      else
        let found := found ++ [{ root := i, loc := k }]
        if found.length = deg then found
        else chienSearch deg left (i + 1) (modnn (k + 1)) reg found

/-- An entry of `omega` in poly form, of `s` and `lambda` in index form. -/
def omegaEntry (s lambda : List Nat) (i : Nat) : Nat :=
  (List.range (i + 1)).foldr (fun j tmp =>
    if s.getD (i - j) 0 ≠ 255 ∧ lambda.getD j 0 ≠ 255 then
      tmp ^^^ alphaTo (modnn (s.getD (i - j) 0 + lambda.getD j 0))
    else tmp) 0

def formOmega (s lambda : List Nat) (deg : Nat) : List Nat :=
  (List.range deg).map fun i => indexOf (omegaEntry s lambda i)

/-- What is added to the byte at a root, with the reduction of exponents a parameter. -/
def errorValue (reduce : Nat → Nat) (lambda omega : List Nat) (deg root : Nat) : Nat :=
  let num1 := (List.range deg).foldr (fun i num1 =>
    if omega.getD i 0 ≠ 255 then num1 ^^^ alphaTo (reduce (omega.getD i 0 + i * root)) else num1) 0
  let num2 := alphaTo (reduce (255 - root))
  let den := (List.range (min deg 9 / 2 + 1)).foldr (fun h den =>
    if lambda.getD (2 * h + 1) 0 ≠ 255 then
      den ^^^ alphaTo (reduce (lambda.getD (2 * h + 1) 0 + 2 * h * root))
    else den) 0
  if num1 ≠ 0 then alphaTo (reduce (indexOf num1 + indexOf num2 + 255 - indexOf den)) else 0

/-- The `PAD` positions before the data are not in the buffer. -/
def applyError (value loc : Nat) (data : Buffer) : Buffer := fun i =>
  if 73 ≤ loc ∧ i = loc - 73 then data i ^^^ value.toUInt8 else data i

def rsDecode (data : Buffer) : Buffer × Int :=
  let syndromes := formSyndromes data
  let s := syndromes.map indexOf
  if syndromes.foldl (fun synError entry => synError ||| entry) 0 = 0 then (data, 0)
  else
    let reg := berlekampMassey s 10 0 .start
    let lambda := reg.lambda.map indexOf
    let deg := degLambda lambda
    let roots := chienSearch deg 255 1 0 lambda []
    if deg ≠ roots.length then (data, -1)
    else
      let omega := formOmega s lambda deg
      (roots.foldr (fun found => applyError (errorValue modnn lambda omega deg found.root) found.loc)
        data, roots.length)

end Friidump
