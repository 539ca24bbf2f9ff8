import Tessera.Pick
import Tessera.Rgb
/-!
# Weighted k-means

Rounds of labelling every point with its nearest centre and moving every centre to the weighted mean of its
points. A cluster without weight takes over the point that is farthest from its centre. The rounds end when the
labels stay the same or when the centres hardly move.
-/

namespace Tessera.Cluster

variable {α : Type} [Scalar α]

/-- A weighted point. -/
structure Weighted (α : Type) where
  point : Rgb α
  weight : α

@[specialize] def labelAll (centers : List (Rgb α)) (points : List (Rgb α)) : List Nat :=
  points.map fun p => Pick.argLeast (centers.map p.sqDist)

/-- The weighted sums and the weights of `k` clusters. -/
structure Sums (α : Type) where
  sum : List (Rgb α)
  weight : List α

@[specialize] def sumsOf (k : Nat) (ps : List (Weighted α)) (labels : List Nat) : Sums α :=
  let mine (c : Nat) : List (Weighted α) := ((ps.zip labels).filter fun (_, l) => l == c).map Prod.fst
  ⟨(List.range k).map fun c => Rgb.sum ((mine c).map fun p => p.point.scale p.weight),
   (List.range k).map fun c => Scalar.sum ((mine c).map Weighted.weight)⟩

/-- Moves one point from its cluster to an empty one. -/
@[specialize] def relocateOne (s : Sums α) (empty : Nat) (p : Weighted α) (old : Nat) : Sums α :=
  let moved := p.point.scale p.weight
  ⟨(s.sum.modify old fun c => c.sub moved).set empty moved,
   (s.weight.set empty p.weight).modify old fun w => w - p.weight⟩

/-- Gives the farthest points to the clusters without weight, unless every point is on its centre. -/
@[specialize] def relocate (centers : List (Rgb α)) (ps : List (Weighted α)) (labels : List Nat) (s : Sums α) : Sums α :=
  let empties := s.weight.zipIdx.filterMap fun (w, c) => if w == Scalar.ofNat 0 then some c else none
  let own := (ps.zip labels).map fun (p, l) => p.point.sqDist (centers.getD l p.point)
  if own.any fun d => Scalar.ofNat 0 < d then
    let far := (Pick.descending own).map Prod.snd
    (empties.zip far).foldl
      (fun s (c, i) =>
        match ps[i]?, labels[i]? with
        | some p, some l => relocateOne s c p l
        | _, _ => s)
      s
  else s

/-- The centres of the sums. A cluster without weight takes the place of the heaviest; one that comes before the
heaviest takes its sum. -/
@[specialize] def average (s : Sums α) : List (Rgb α) :=
  let heaviest := Pick.argGreatest s.weight
  let weightOf (c : Nat) : α := s.weight.getD c (Scalar.ofNat 0)
  let sumOf (c : Nat) : Rgb α := s.sum.getD c (Rgb.fill (Scalar.ofNat 0))
  let meanOf (c : Nat) : Rgb α := (sumOf c).scale (Scalar.ofNat 1 / weightOf c)
  (List.range s.sum.length).map fun c =>
    if Scalar.ofNat 0 < weightOf c then meanOf c
    else if heaviest < c && Scalar.ofNat 0 < weightOf heaviest then meanOf heaviest
    else sumOf heaviest

/-- One round: the labels by the old centres, and the new centres. -/
@[specialize] def round (ps : List (Weighted α)) (centers : List (Rgb α)) : List Nat × List (Rgb α) :=
  let labels := labelAll centers (ps.map Weighted.point)
  (labels, average (relocate centers ps labels (sumsOf centers.length ps labels)))

/-- At most `n` rounds, then labels that belong to the centres. -/
@[specialize] def rounds (ps : List (Weighted α)) (tolerance : α) :
    Nat → Option (List Nat) → List (Rgb α) → List Nat × List (Rgb α)
  | 0, _, centers => (labelAll centers (ps.map Weighted.point), centers)
  | n + 1, previous, centers =>
    let (labels, moved) := round ps centers
    if previous == some labels then (labels, moved)
    else
      let shift := Scalar.sum (moved.zipWith Rgb.sqDist centers)
      if shift ≤ tolerance then (labelAll moved (ps.map Weighted.point), moved)
      else rounds ps tolerance n (some labels) moved

/-- The mean of a list of points, without weights. -/
@[specialize] def center (points : List (Rgb α)) : Rgb α :=
  (Rgb.sum points).map (· / Scalar.ofNat points.length)

/-- The mean over the channels of the variance of the points. -/
@[specialize] def spread (points : List (Rgb α)) : α :=
  let m := center points
  let v := center (points.map fun p => (p.sub m).map fun x => x * x)
  (v.r + v.g + v.b) / Scalar.ofNat 3

/-- K-means from given centres: the label of every point, and the centres (`KMeans.fit`). -/
@[specialize] def lloyd (points : List (Rgb α)) (weights : List α) (start : List (Rgb α)) (iterations : Nat) :
    List Nat × List (Rgb α) :=
  let m := center points
  let tolerance := spread points * Scalar.ratio 1 10000
  let ps := points.zipWith (fun p w => (⟨p.sub m, w⟩ : Weighted α)) weights
  let (labels, centers) := rounds ps tolerance iterations none (start.map fun c => c.sub m)
  (labels, centers.map fun c => c.add m)

/-- A way to find clusters: from points, their weights, centres to start from and a number of rounds to the label of every
point and the centres. `lloyd` is one. -/
abbrev Means (α : Type) := List (Rgb α) → List α → List (Rgb α) → Nat → List Nat × List (Rgb α)

end Tessera.Cluster
