import Tessera.Picture.Basic
/-!
# Boxes of pixels

A table has no room for every colour with every alpha. So pixels are put into boxes by the high bits of their channels,
and all pixels of a box become one, the mean of the box. Clear pixels count as one colour, that of the first. Of the
alpha of a box nothing is kept but whether it is clear.
-/

namespace Tessera.Boxes

def boxOf (p : Pixel) : List Nat :=
  [p.color.r.toNat / 32, p.color.g.toNat / 16, p.color.b.toNat / 32, p.alpha.toNat / 32]

def joinClear (ps : List Pixel) : List Pixel :=
  match ps.find? fun p => p.alpha == 0 with
  | some q => ps.map fun p => if p.alpha = 0 then q else p
  | none => ps

def mean (vs : List UInt8) : UInt8 := (vs.foldl (fun n v => n + v.toNat) 0 / vs.length).toUInt8

/-- The pixel that stands for the pixels of a box. -/
def meanPixel (ps : List Pixel) : Pixel :=
  let color : Rgb UInt8 := ⟨mean (ps.map (·.color.r)), mean (ps.map (·.color.g)), mean (ps.map (·.color.b))⟩
  ⟨color, if mean (ps.map (·.alpha)) = 0 then 0 else 255⟩

def merge (ps : List Pixel) : List Pixel :=
  let ps := joinClear ps
  let boxes := (ps.map boxOf).eraseDups.map fun b => (b, meanPixel (ps.filter fun p => boxOf p == b))
  ps.map fun p => ((boxes.find? fun e => e.1 == boxOf p).map Prod.snd).getD p

/-- Rows of pixels as the means of their boxes. -/
def mergeRows (rows : List (List Pixel)) : List (List Pixel) :=
  Picture.cut ((rows.head?.map List.length).getD 0) rows.length (merge rows.flatten)

end Tessera.Boxes
