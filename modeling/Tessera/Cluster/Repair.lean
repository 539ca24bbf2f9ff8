import Tessera.Pick
import Tessera.Tensor
/-!
# Repair of empty clusters

Each empty cluster, in order, takes over one point: of the points whose cluster has others, the one that is
farthest from its own centre. A point that has moved is at distance zero.
-/

namespace Tessera.Cluster

variable {α : Type} [Scalar α]

/-- Labels of points, with the distance of each point to its own centre. -/
structure Labelling (α : Type) where
  labels : List Nat
  own : List α

/-- How many points each cluster has, of the clusters below `k` and below the greatest label. -/
def countsOf (labels : List Nat) (k : Nat) : List Nat :=
  (List.range (labels.foldl (fun m l => max m (l + 1)) k)).map fun c => labels.count c

/-- Labels under repair, with the number of points of each cluster. -/
structure Tally (α : Type) extends Labelling α where
  counts : List Nat

/-- Whether the cluster of a label has more than one point. -/
def canSpare (counts : List Nat) (l : Nat) : Bool := 1 < counts.getD l 0

/-- The counts after a point has gone from its cluster to an empty one. -/
def recount (counts : List Nat) (old cluster : Nat) : List Nat := (counts.modify old (· - 1)).set cluster 1

/-- Hands a point to an empty cluster, when a cluster can spare one. -/
@[specialize] def handOver (s : Tally α) (cluster : Nat) : Tally α :=
  if s.labels.any (canSpare s.counts) then
    let scores := s.labels.zipWith (fun l d => if canSpare s.counts l then d else Scalar.ofInt (-1)) s.own
    let i := Pick.argGreatest scores
    ⟨⟨s.labels.set i cluster, s.own.set i (Scalar.ofNat 0)⟩, recount s.counts (s.labels.getD i 0) cluster⟩
  else s

def emptyClusters (counts : List Nat) : List Nat := (List.range counts.length).filter fun c => counts.getD c 0 == 0

/-- Gives a point to every empty cluster, as long as there are points to spare (`_fill_empty_clusters`). -/
@[specialize] def repair (s : Labelling α) (k : Nat) : Labelling α :=
  let counts := countsOf s.labels k
  ((emptyClusters counts).foldl handOver ⟨s, counts⟩).toLabelling

/-! ## Repair of given labels -/

/-- Labels with distances of any shape, and with the number of points of each cluster. -/
structure LabellingDraft where
  labels : List Nat
  own : Tensor Float
  counts : List Nat

/-- A number of clusters, which has to be an integer. -/
def countOf : Value → Result Nat
  | .int n => if n < 0 then refuse .negative else if n < Value.wordLimit then pure n.toNat else refuse .overflow
  | _ => refuse .kind

def labelsOf (t : Tensor Int) : Result (List Nat) :=
  if t.data.any (· < 0) then refuse .negative else pure (t.data.toList.map Int.toNat)

/-- Writes zero to a place of the first dimension. -/
def cleared (t : Tensor Float) (i : Nat) : Result (Tensor Float) :=
  match t.shape with
  | [] => refuse .position
  | n :: rest =>
    let width := Tensor.cells rest
    if i < n then pure ⟨t.shape, t.data.mapIdx fun j x => if j / width = i then 0.0 else x⟩ else refuse .position

/-- Hands a point to an empty cluster. The distances are joined with the points, so that a single distance stands for
all of them, but it can be written only in its place. -/
def handOverGiven (s : LabellingDraft) (cluster : Nat) : Result LabellingDraft :=
  if s.labels.any (canSpare s.counts) then
    let spare : Tensor Bool := ⟨[s.labels.length], (s.labels.map (canSpare s.counts)).toArray⟩
    match Tensor.zipWith? (fun free d => if free then d else -1.0) spare s.own with
    | none => refuse .shape
    | some scores =>
      let i := Pick.argGreatest scores.data.toList
      if scores.data.isEmpty then refuse .shape
      else if i < s.labels.length then do
        pure ⟨s.labels.set i cluster, ← cleared s.own i, recount s.counts (s.labels.getD i 0) cluster⟩
      else refuse .position
  else pure s

/-- Repairs given labels with given distances. -/
def repairGiven (labels own k : Value) : Result LabellingDraft := do
  let labels ← Tensor.ofValue (Value.within (-Value.wordLimit) Value.wordLimit) labels
  let own ← Tensor.reals own
  if labels.rank ≠ 1 then refuse .shape
  else
    let k ← countOf k
    let labels ← labelsOf labels
    Tensor.checkCount (labels.foldl (fun m l => max m (l + 1)) k)
    let counts := countsOf labels k
    (emptyClusters counts).foldlM handOverGiven ⟨labels, own, counts⟩

end Tessera.Cluster
