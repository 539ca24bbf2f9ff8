import Tessera.Cluster.Lloyd
import Tessera.Cluster.Repair
import Tessera.Cluster.Seed
import Tessera.Error
/-!
# Clusters of points

Points are gathered into `k` clusters (`cluster_tiles`). When there are no more distinct points than clusters, every
point is a centre of its own and the clusters left over repeat points in turn. Otherwise k-means runs from
farthest-point seeds, and clusters that end up empty are repaired.
-/

namespace Tessera.Cluster

variable {α : Type} [Scalar α]

/-- Labels of the points and centres of the clusters. -/
structure Clusters (α : Type) where
  labels : List Nat
  centers : List (Rgb α)

@[specialize] def distinct : List (Rgb α) → Nat
  | [] => 0
  | p :: ps => if ps.any p.same then distinct ps else distinct ps + 1

/-- Every distinct point as a centre, and points in turn for the clusters left over. -/
@[specialize] def eachOwn (points : List (Rgb α)) (seeds : List Nat) (k : Nat) : Clusters α :=
  let black : Rgb α := Rgb.fill (Scalar.ofNat 0)
  let centers := (List.range k).map fun c =>
    match seeds[c]? with
    | some i => points.getD i black
    | none => points.getD (c % points.length) black
  ⟨labelAll centers points, centers⟩

/-- The weighted means of the clusters that have weight; the others keep their centres. -/
@[specialize] def recenter (points : List (Rgb α)) (weights : List α) (labels : List Nat) (centers : List (Rgb α)) :
    List (Rgb α) :=
  let ps := points.zipWith (fun p w => (⟨p, w⟩ : Weighted α)) weights
  let s := sumsOf centers.length ps labels
  centers.zipIdx.map fun (old, c) =>
    match s.sum[c]?, s.weight[c]? with
    | some sum, some w => if Scalar.ofNat 0 < w then sum.map (· / w) else old
    | _, _ => old

/-- K-means with its empty clusters repaired. -/
@[specialize] def refined (means : Means α) (points : List (Rgb α)) (weights : List α) (seeds : List Nat)
    (iterations : Nat) : Clusters α :=
  let start := seeds.map fun i => points.getD i (Rgb.fill (Scalar.ofNat 0))
  let (labels, centers) := means points weights start iterations
  let own := points.zipWith (fun p l => p.sqDist (centers.getD l p)) labels
  let repaired := (repair ⟨labels, own⟩ centers.length).labels
  if repaired == labels then ⟨labels, centers⟩ else ⟨repaired, recenter points weights repaired centers⟩

/-- Rounds of k-means when nothing else is asked for (`INIT_KMEANS_ITERATIONS`). -/
def defaultRounds : Nat := 12

/-- The clusters of some points (`cluster_tiles`). -/
@[specialize] def clusters (means : Means α) (points : List (Rgb α)) (weights : List α) (k iterations : Nat) :
    Clusters α :=
  let seeds := seeds points weights k
  if distinct points ≤ k then eachOwn points seeds k else refined means points weights seeds (max 1 iterations)

/-! ## Clusters by given numbers -/

/-- The number of clusters when every point can have its own. It has to be an integer, with room for the centres. -/
def roomFor : Value → Result Nat
  | .int n => do
    Tensor.checkCount (n.toNat * 3)
    pure n.toNat
  | _ => refuse .kind

def meansFor : Value → Result Nat
  | .int n => if n < 1 then refuse .clusters else pure n.toNat
  | .bool true => refuse .kind
  | _ => refuse .clusters

/-- The most rounds of k-means by a value of any kind; there is always one. -/
def roundsFor (v : Value) : Result Nat := do
  match Number.max (.whole 1) (← Number.ofValue v) with
  | .whole n => pure n.toNat
  | .real _ => refuse .clusters

/-- Whether k-means can work with points and weights: there is a weight for each point, all are ordinary numbers, and
some weight is not zero. -/
def isOrdinary (points : List (Rgb Float)) (weights : List Float) : Bool :=
  points.length == weights.length && weights.all Float.isFinite && weights.any (· != 0.0) &&
    points.all fun p => p.toList.all Float.isFinite

/-- The clusters of some points, with a number of clusters and of rounds of any kind. -/
def given (points : List (Rgb Float)) (weights : List Float) (k iterations : Value) : Result (Clusters Float) := do
  let seeds ← seedsGiven points weights k
  if Number.le (.whole (distinct points)) (← Number.ofValue k) then
    let n ← roomFor k
    pure (eachOwn points seeds n)
  else
    let _ ← Number.ofValue iterations
    let n ← meansFor k
    let rounds ← roundsFor iterations
    if isOrdinary points weights then pure (clusters lloyd points weights n rounds) else refuse .shape

end Tessera.Cluster
