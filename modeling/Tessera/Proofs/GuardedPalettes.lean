import Mathlib
import Tessera.Proofs.Composition
import Tessera.Proofs.Extraction
import Tessera.Proofs.GuardedLearning
import Tessera.Start
/-!
# Guarded palettes

The beginning and the end of a run under guard: clusters that start the palettes, levels that palettes are reduced to, and
the composition. K-means is taken as it is given, but it is asked only for fewer clusters than there are different points. For one
palette or more the start is never refused and gives palettes that can be used; with such palettes and sound tiles neither
is the rest.
-/

namespace Tessera

/-- A canvas that is cut into tiles at all has sound ones. -/
theorem Canvas.tiles_sound (c : Canvas) (h : 0 < c.tiling.tiles) : c.tiles.Sound := by
  refine ⟨c.tiles_inOrder, by rw [c.length_tiles]; exact h, ?_⟩
  intro x hx
  rw [← Array.mem_toList_iff, c.samples_eq] at hx
  obtain ⟨b, -, hx⟩ := List.mem_flatMap.1 hx
  obtain ⟨color, -, rfl⟩ := List.mem_map.1 hx
  rw [c.length_tiles]
  exact b.isLt

/-! ## Counts of clusters -/

namespace Cluster

theorem foldl_max_eq {labels : List Nat} {k : Nat} (h : ∀ l ∈ labels, l < k) :
    labels.foldl (fun m l => max m (l + 1)) k = k := by
  refine List.foldlRecOn labels _ (motive := fun m => m = k) rfl ?_
  intro m hm l hl
  have := h l hl
  omega

theorem length_countsOf {labels : List Nat} {k : Nat} (h : ∀ l ∈ labels, l < k) : (countsOf labels k).length = k := by
  rw [countsOf, List.length_map, List.length_range, foldl_max_eq h]

/-- The counts are those of the labels, and nothing beyond the clusters. -/
theorem getD_countsOf {labels : List Nat} {k : Nat} (h : ∀ l ∈ labels, l < k) (c : Nat) :
    (countsOf labels k).getD c 0 = labels.count c := by
  rw [List.getD_eq_getElem?_getD, countsOf, foldl_max_eq h, List.getElem?_map]
  by_cases hc : c < k
  · rw [List.getElem?_range hc]
    rfl
  · have hnone : labels.count c = 0 := List.count_eq_zero.2 fun hmem => hc (h c hmem)
    rw [List.getElem?_eq_none (by simpa using hc), hnone]
    rfl

theorem emptyClusters_eq {labels : List Nat} {k : Nat} (h : ∀ l ∈ labels, l < k) :
    emptyClusters (countsOf labels k) = (List.range k).filter fun c => labels.count c == 0 := by
  simp only [emptyClusters, length_countsOf h, getD_countsOf h]

theorem mem_emptyClusters {labels : List Nat} {k : Nat} (h : ∀ l ∈ labels, l < k) :
    ∀ c ∈ emptyClusters (countsOf labels k), c < k := by
  intro c hc
  rw [emptyClusters_eq h] at hc
  exact List.mem_range.1 (List.mem_of_mem_filter hc)

end Cluster

namespace Guarded

variable {α : Type} [Scalar α]

/-! ## Seeds and clusters -/

/-- The squared distances of all points from the point at a position. -/
def distancesFrom (points : List (Rgb α)) (i : Nat) : Result (List α) := do
  let c ← item points i
  pure (points.map fun p => p.sqDist c)

/-- Further seeds, given the distance of each point to its nearest seed so far. -/
def seedsFrom (points : List (Rgb α)) : Nat → List α → Result (List Nat)
  | 0, _ => pure []
  | n + 1, nearest => do
    let far ← greatest nearest
    let distances ← distancesFrom points far.1
    let rest ← seedsFrom points n (nearest.zipWith Pick.lesser distances)
    pure (far.1 :: rest)

/-- Positions of seeds. -/
def seeds (points : List (Rgb α)) (weights : List α) (k : Nat) : Result (List Nat) := do
  let heaviest ← greatest weights
  let nearest ← distancesFrom points heaviest.1
  let rest ← seedsFrom points (min k points.length - 1) nearest
  pure (heaviest.1 :: rest)

/-- The point that a cluster starts with when every point can have its own. -/
def ownPoint (points : List (Rgb α)) (seeds : List Nat) (c : Nat) : Result (Rgb α) :=
  if c < seeds.length then do
    let i ← item seeds c
    item points i
  else do
    let i ← remainder c points.length
    item points i

/-- Every distinct point as a centre, and points in turn for the clusters left over. -/
def eachOwn (points : List (Rgb α)) (seeds : List Nat) (k : Nat) : Result (Cluster.Clusters α) := do
  fits (decide (seeds.length ≤ k))
  let centers ← (List.range k).mapM (ownPoint points seeds)
  let nearest ← points.mapM fun p => least (centers.map p.sqDist)
  pure ⟨nearest.map Prod.fst, centers⟩

/-- K-means, for fewer clusters than there are different points. -/
def meansOf (means : Cluster.Means α) (points : List (Rgb α)) (weights : List α) (start : List (Rgb α)) (iterations : Nat) :
    Result (List Nat × List (Rgb α)) :=
  if 0 < start.length ∧ start.length < Cluster.distinct points ∧ weights.length = points.length then
    pure (means points weights start iterations)
  else refuse .clusters

/-- Hands a point to an empty cluster, when a cluster can spare one. -/
def handOver (s : Cluster.Tally α) (cluster : Nat) : Result (Cluster.Tally α) := do
  let held ← s.labels.mapM (item s.counts)
  if held.any (1 < ·) then
    fits (s.own.length == s.labels.length)
    let far ← greatest (s.labels.zipWith (fun l d => if Cluster.canSpare s.counts l then d else Scalar.ofInt (-1)) s.own)
    let old ← item s.labels far.1
    fits (decide (cluster < s.counts.length))
    pure ⟨⟨s.labels.set far.1 cluster, s.own.set far.1 (Scalar.ofNat 0)⟩, Cluster.recount s.counts old cluster⟩
  else pure s

/-- K-means with its empty clusters repaired. All labels have to be of clusters. -/
def refined (means : Cluster.Means α) (points : List (Rgb α)) (weights : List α) (seeds : List Nat) (iterations : Nat) :
    Result (Cluster.Clusters α) := do
  let start ← seeds.mapM (item points)
  let found ← meansOf means points weights start iterations
  let own ← (points.zip found.1).mapM fun x => do
    let c ← item found.2 x.2
    pure (x.1.sqDist c)
  let counts := Cluster.countsOf found.1 found.2.length
  let repaired ← (Cluster.emptyClusters counts).foldlM handOver ⟨⟨found.1, own⟩, counts⟩
  fits (repaired.labels.all fun l => decide (l < found.2.length))
  pure (if repaired.labels == found.1 then ⟨found.1, found.2⟩
    else ⟨repaired.labels, Cluster.recenter points weights repaired.labels found.2⟩)

/-- The clusters of some points. -/
def clusters (means : Cluster.Means α) (points : List (Rgb α)) (weights : List α) (k iterations : Nat) :
    Result (Cluster.Clusters α) := do
  let seeds ← seeds points weights k
  if Cluster.distinct points ≤ k then eachOwn points seeds k else refined means points weights seeds (max 1 iterations)

section Clusters

variable {points : List (Rgb α)} {weights : List α}

theorem greatest_eq_ok {xs : List α} (h : xs ≠ []) :
    ∃ v, greatest xs = .ok (Pick.argGreatest xs, v) ∧ Pick.argGreatest xs < xs.length := by
  obtain ⟨k, v, hk, hv⟩ := Pick.exists_greatest? h
  have hlt := (List.getElem?_eq_some_iff.1 hv).1
  refine ⟨v, ?_, ?_⟩
  · rw [greatest, Pick.argGreatest, hk]
    rfl
  · rw [Pick.argGreatest, hk]
    exact hlt

theorem distancesFrom_eq_ok {i : Nat} (h : i < points.length) :
    distancesFrom points i = .ok (Cluster.distancesFrom points i) ∧
      (Cluster.distancesFrom points i).length = points.length := by
  have hget := List.getElem?_eq_getElem h
  rw [distancesFrom, item_eq_ok hget, Cluster.distancesFrom, hget]
  exact ⟨rfl, by simp⟩

/-- One seed more, as long as there are points. -/
theorem seedsFrom_eq_ok (hpoints : points ≠ []) (n : Nat) {nearest : List α} (hlen : nearest.length = points.length) :
    seedsFrom points n nearest = .ok (Cluster.seedsFrom points n nearest) ∧
      ∀ i ∈ Cluster.seedsFrom points n nearest, i < points.length := by
  induction n generalizing nearest with
  | zero => exact ⟨rfl, by simp [Cluster.seedsFrom]⟩
  | succ n ih =>
    have hne : nearest ≠ [] := by
      rw [ne_eq, ← List.length_eq_zero_iff, hlen, List.length_eq_zero_iff]
      exact hpoints
    obtain ⟨v, hfar, hlt⟩ := greatest_eq_ok hne
    rw [hlen] at hlt
    obtain ⟨hdistances, hsize⟩ := distancesFrom_eq_ok hlt
    have hnext : (nearest.zipWith Pick.lesser (Cluster.distancesFrom points (Pick.argGreatest nearest))).length =
        points.length := by
      rw [List.length_zipWith, hlen, hsize, Nat.min_self]
    obtain ⟨hrest, hmem⟩ := ih hnext
    rw [seedsFrom, hfar, ok_bind]
    dsimp only
    rw [hdistances, ok_bind, hrest]
    refine ⟨rfl, ?_⟩
    intro i hi
    rcases List.mem_cons.1 hi with rfl | hi
    · exact hlt
    · exact hmem i hi

theorem seeds_eq_ok (hpoints : points ≠ []) (hw : weights.length = points.length) (k : Nat) :
    seeds points weights k = .ok (Cluster.seeds points weights k) ∧
      ∀ i ∈ Cluster.seeds points weights k, i < points.length := by
  have hne : weights ≠ [] := by
    rw [ne_eq, ← List.length_eq_zero_iff, hw, List.length_eq_zero_iff]
    exact hpoints
  obtain ⟨v, hheaviest, hlt⟩ := greatest_eq_ok hne
  rw [hw] at hlt
  obtain ⟨hdistances, hsize⟩ := distancesFrom_eq_ok hlt
  obtain ⟨hrest, hmem⟩ := seedsFrom_eq_ok hpoints (min k points.length - 1) hsize
  rw [seeds, hheaviest, ok_bind]
  dsimp only
  rw [hdistances, ok_bind, hrest]
  refine ⟨rfl, ?_⟩
  intro i hi
  rcases List.mem_cons.1 hi with rfl | hi
  · exact hlt
  · exact hmem i hi

theorem eachOwn_eq_ok (hpoints : points ≠ []) {seeds : List Nat} (hseeds : ∀ i ∈ seeds, i < points.length) {k : Nat}
    (hk : 0 < k) (hlen : seeds.length ≤ k) : eachOwn points seeds k = .ok (Cluster.eachOwn points seeds k) := by
  have hpos := List.length_pos_iff.2 hpoints
  have hcenters : (List.range k).mapM (ownPoint points seeds) = .ok (Cluster.eachOwn points seeds k).centers := by
    refine mapM_eq_ok ?_
    intro c _
    rw [ownPoint]
    split
    · rename_i hc
      have hget := List.getElem?_eq_getElem hc
      rw [item_eq_ok hget, ok_bind, hget]
      exact item_getD (hseeds _ (List.getElem_mem hc)) _
    · rename_i hc
      rw [List.getElem?_eq_none (by omega), remainder_eq_ok c hpos, ok_bind]
      exact item_getD (Nat.mod_lt c hpos) _
  have hne : (Cluster.eachOwn points seeds k).centers ≠ [] := by
    rw [ne_eq, ← List.length_eq_zero_iff]
    simp [Cluster.eachOwn, hk.ne']
  rw [eachOwn, fits_eq_ok (decide_eq_true hlen), ok_bind, hcenters, ok_bind,
    mapM_eq_ok fun p _ => least_eq_ok (by simpa using hne), ok_bind, List.map_map]
  simp only [Function.comp_def, choose_fst]
  rfl

/-- One point handed over, with a count for every cluster. -/
theorem handOver_eq_ok {s : Cluster.Tally α} {k cluster : Nat} (hlen : s.own.length = s.labels.length)
    (hlabels : ∀ l ∈ s.labels, l < k) (hcounts : s.counts.length = k) (hcluster : cluster < k) :
    handOver s cluster = .ok (Cluster.handOver s cluster) ∧
      (Cluster.handOver s cluster).own.length = (Cluster.handOver s cluster).labels.length ∧
      (∀ l ∈ (Cluster.handOver s cluster).labels, l < k) ∧ (Cluster.handOver s cluster).counts.length = k := by
  have hheld := mapM_eq_ok (f := item s.counts) (g := fun l => s.counts.getD l 0) (l := s.labels)
    fun l hl => item_getD (by rw [hcounts]; exact hlabels l hl) 0
  have hany : (s.labels.map fun l => s.counts.getD l 0).any (1 < ·) = s.labels.any (Cluster.canSpare s.counts) := by
    rw [List.any_map]
    rfl
  rw [handOver, hheld, ok_bind, hany, Cluster.handOver]
  split
  · rename_i hspare
    obtain ⟨l, hl, -⟩ := List.any_eq_true.1 hspare
    have hpos := List.length_pos_of_mem hl
    have hscores : s.labels.zipWith
        (fun l d => if Cluster.canSpare s.counts l then d else Scalar.ofInt (-1)) s.own ≠ [] := by
      rw [ne_eq, ← List.length_eq_zero_iff, List.length_zipWith]
      omega
    obtain ⟨v, hfar, hlt⟩ := greatest_eq_ok hscores
    rw [List.length_zipWith, hlen, Nat.min_self] at hlt
    rw [fits_eq_ok (by simpa using hlen), ok_bind, hfar, ok_bind, item_getD hlt 0, ok_bind,
      fits_eq_ok (by simpa [hcounts] using hcluster)]
    refine ⟨rfl, by simpa using hlen, ?_, by simpa [Cluster.recount] using hcounts⟩
    intro l hl
    rcases List.mem_or_eq_of_mem_set hl with hl | rfl
    · exact hlabels l hl
    · exact hcluster
  · exact ⟨rfl, hlen, hlabels, hcounts⟩

theorem refined_eq_ok {means : Cluster.Means α} (hmeans : means.Lawful) (hw : weights.length = points.length)
    {seeds : List Nat} (hseeds : ∀ i ∈ seeds, i < points.length) (hne : seeds ≠ [])
    (hfew : seeds.length < Cluster.distinct points) (iterations : Nat) :
    refined means points weights seeds iterations = .ok (Cluster.refined means points weights seeds iterations) := by
  have hstart := mapM_eq_ok (f := item points) (g := fun i => points.getD i (Rgb.fill (Scalar.ofNat 0))) (l := seeds)
    fun i hi => item_getD (hseeds i hi) _
  have hpos := List.length_pos_iff.2 hne
  have hcolors : (seeds.map fun i => points.getD i (Rgb.fill (Scalar.ofNat 0))) ≠ [] := by simpa using hne
  have hmany : (seeds.map fun i => points.getD i (Rgb.fill (Scalar.ofNat 0))).length < Cluster.distinct points := by
    simpa using hfew
  rw [refined, hstart, ok_bind, Cluster.refined]
  generalize (seeds.map fun i => points.getD i (Rgb.fill (Scalar.ofNat 0))) = start at hcolors hmany ⊢
  obtain ⟨hlen, hmem⟩ := hmeans.labels iterations hw hcolors hmany
  have hcenters := hmeans.centers iterations hw hcolors hmany
  have hfound : meansOf means points weights start iterations = .ok (means points weights start iterations) := by
    rw [meansOf, if_pos ⟨List.length_pos_iff.2 hcolors, hmany, hw⟩]
    rfl
  rw [hfound, ok_bind]
  generalize means points weights start iterations = found at hlen hmem hcenters ⊢
  obtain ⟨labels, centers⟩ := found
  dsimp only at hlen hmem hcenters ⊢
  rw [← hcenters] at hmem
  have hown := mapM_eq_ok (f := fun x : Rgb α × Nat => do
      let c ← item centers x.2
      pure (x.1.sqDist c))
    (g := fun x => x.1.sqDist (centers.getD x.2 x.1)) (l := points.zip labels) ?_
  · have hzip : (points.zip labels).map (fun x => x.1.sqDist (centers.getD x.2 x.1)) =
        points.zipWith (fun p l => p.sqDist (centers.getD l p)) labels := by
      rw [List.zip, List.map_zipWith]
    have hrepair := foldlM_eq_ok (f := handOver) (g := Cluster.handOver)
      (fun s : Cluster.Tally α => s.own.length = s.labels.length ∧ (∀ l ∈ s.labels, l < centers.length) ∧
        s.counts.length = centers.length)
      (l := Cluster.emptyClusters (Cluster.countsOf labels centers.length)) ?_
      (s := ⟨⟨labels, points.zipWith (fun p l => p.sqDist (centers.getD l p)) labels⟩,
        Cluster.countsOf labels centers.length⟩)
      ⟨by simp [hlen], hmem, Cluster.length_countsOf hmem⟩
    · have hbelow := hrepair.2.2.1
      rw [hown, ok_bind, hzip, hrepair.1, ok_bind, fits_eq_ok (by simpa using hbelow)]
      rfl
    · rintro s c hc ⟨hs, hlabels, hcounts⟩
      exact handOver_eq_ok hs hlabels hcounts (Cluster.mem_emptyClusters hmem c hc)
  · intro x hx
    rw [item_getD (hmem _ (List.of_mem_zip hx).2) x.1]
    rfl

/-- **Clusters under guard.** Weighted points have clusters, one or more as asked for. -/
theorem clusters_eq_ok {means : Cluster.Means α} (hmeans : means.Lawful) (hpoints : points ≠ [])
    (hw : weights.length = points.length) {k : Nat} (hk : 0 < k) (iterations : Nat) :
    clusters means points weights k iterations = .ok (Cluster.clusters means points weights k iterations) := by
  obtain ⟨hseeds, hmem⟩ := seeds_eq_ok hpoints hw k
  have hlen : (Cluster.seeds points weights k).length = min k points.length - 1 + 1 := by
    simp [Cluster.seeds, Cluster.length_seedsFrom]
  have hpos := List.length_pos_iff.2 hpoints
  rw [clusters, hseeds, ok_bind, Cluster.clusters]
  split
  · exact eachOwn_eq_ok hpoints hmem hk (by omega)
  · have := Cluster.distinct_le_length points
    exact refined_eq_ok hmeans hw hmem (by simp [Cluster.seeds]) (by omega) _

end Clusters

/-! ## Starting palettes -/

/-- The mean colour of a tile with pixels. -/
def tileMean (t : Tile) : Result (Rgb α) := do
  let sum : Rgb α := Rgb.sum (t.histogram.map fun x => Rgb.scale (Scalar.ofNat x.2) (Rgb.ofBytes x.1))
  let r ← quotient sum.r t.pixelCount
  let g ← quotient sum.g t.pixelCount
  let b ← quotient sum.b t.pixelCount
  pure ⟨r, g, b⟩

/-- The first colours of `k` palettes. -/
def startSeeds (means : Cluster.Means α) (ts : TileSet) (k : Nat) : Result (List (Rgb α)) :=
  if (Start.used ts).isEmpty then pure (List.replicate k (Rgb.fill (Scalar.ofNat 0)))
  else do
    let points ← (Start.used ts).mapM tileMean
    let found ← clusters means points ((Start.used ts).map fun t => Scalar.ofNat t.pixelCount) k Cluster.defaultRounds
    pure found.centers

/-- The starting palettes, as many as asked for. -/
def start (means : Cluster.Means α) (ts : TileSet) (k : Nat) (zero : ColorZero) (shared transparent : Rgb Int) :
    Result (PaletteSet α) := do
  let seeds ← startSeeds means ts k
  fits (decide (0 < k) && seeds.length == k)
  pure (PaletteSet.ofSeeds zero (Rgb.ofInts shared) (Rgb.ofInts transparent) seeds)

/-- Lengthens palettes by repeating the last colour, which there has to be. -/
def padded (s : PaletteSet α) (n : Nat) : Result (PaletteSet α) :=
  if s.slots = 0 then refuse .position else pure (s.padded n)

section Start

variable {means : Cluster.Means α} (hmeans : means.Lawful) (ts : TileSet) {k : Nat} (hk : 0 < k)

theorem tileMean_eq_ok {t : Tile} (h : 0 < t.pixelCount) : tileMean t = .ok (Tile.mean t : Rgb α) := by
  rw [tileMean, quotient_eq_ok _ h, ok_bind, quotient_eq_ok _ h, ok_bind, quotient_eq_ok _ h, ok_bind, Tile.mean,
    if_neg h.ne']
  rfl

include hmeans hk

theorem startSeeds_eq_ok : startSeeds means ts k = .ok (Start.seeds means ts k) := by
  rw [startSeeds, Start.seeds]
  split
  · rename_i hempty
    rw [List.isEmpty_iff.1 hempty]
    rfl
  · rename_i hne
    have hused : Start.used ts ≠ [] := fun h => hne (List.isEmpty_iff.2 h)
    have hpoints := mapM_eq_ok (f := tileMean (α := α)) (g := Tile.mean) (l := Start.used ts) fun t ht =>
      tileMean_eq_ok (by simpa using List.of_mem_filter ht)
    rw [hpoints, ok_bind, clusters_eq_ok hmeans (by simpa using hused) (by simp) hk]
    split
    · exact absurd ‹_› hused
    · rfl

/-- **The start under guard.** One palette or more are started, and can be used. -/
theorem start_eq_ok (zero : ColorZero) (shared transparent : Rgb Int) :
    start means ts k zero shared transparent = .ok (Start.palettes means ts k zero shared transparent) ∧
      (Start.palettes means ts k zero shared transparent).Usable := by
  have hlen := Start.length_seeds hmeans ts hk
  constructor
  · rw [start, startSeeds_eq_ok hmeans ts hk, ok_bind, fits_eq_ok (by simp [hk, hlen])]
    rfl
  · rw [Start.palettes]
    refine ⟨by rw [PaletteSet.ofSeeds_size, hlen]; exact hk, ?_⟩
    cases zero <;> exact Nat.succ_pos _

end Start

section Usable

variable {s : PaletteSet α}

omit [Scalar α] in
theorem padded_eq_ok (hs : s.Usable) (n : Nat) : padded s n = .ok (s.padded n) ∧ (s.padded n).Usable := by
  have hpos := hs.slots_pos
  rw [padded, if_neg hpos.ne']
  refine ⟨rfl, by rw [PaletteSet.padded_size]; exact hs.size_pos, ?_⟩
  have hcount := hs.candidates_pos
  simp only [PaletteSet.candidateCount, PaletteSet.firstCandidate, PaletteSet.padded_zero,
    PaletteSet.padded_slots s n hpos] at hcount ⊢
  omega

end Usable

/-! ## Bit depth -/

/-- The distance of two neighbouring levels. -/
def levelStep (bits : Nat) : Result α := quotient (Scalar.ofNat 255) (2 ^ bits - 1)

/-- Snaps the colours of a palette set; a fixed slot keeps its colour. -/
def reduce (bits : Nat) (s : PaletteSet α) : Result (PaletteSet α) := do
  let step ← levelStep bits
  pure { s with palettes := s.palettes.map (Depth.snapFrom step s.zero.reservedSlots) }

/-- Moves every slot that is used to the mean of what uses it. -/
def recenter (ts : TileSet) (s : PaletteSet α) : Result (PaletteSet α) := do
  let chosen ← assign none ts s
  let rs ← residuals ts s (chosen.map Prod.fst)
  fits (rs.all fun x => decide (x.2.palette < s.size) && decide (x.2.slot < s.slots))
  (Depth.allSlots s).foldlM
    (fun out y => (Depth.slotMean s rs y.1 y.2).elim (pure out) fun c => change out y.1 y.2 fun _ => c) s

/-- One corrective pass. -/
def correctOnce (bits : Nat) (ts : TileSet) (s : PaletteSet α) : Result (PaletteSet α) :=
  (if ts.entries.isEmpty then pure s else recenter ts s) >>= reduce bits

section Depth

variable {bits : Nat} {ts : TileSet} {s : PaletteSet α}

theorem levelStep_eq_ok (hbits : 1 ≤ bits) : levelStep bits = .ok (Level.step bits : α) := by
  have hone : 1 < 2 ^ bits := Nat.one_lt_two_pow (by omega)
  have hcast : ((2 ^ bits - 1 : Nat) : Int) = ((Nat.pow 2 bits : Nat) - 1 : Int) := by
    rw [Int.ofNat_sub hone.le]
    rfl
  rw [levelStep, quotient_eq_ok _ (by omega), Level.step, Scalar.ofNat, Scalar.ofNat, hcast]

theorem reduce_eq_ok (hbits : 1 ≤ bits) (hs : s.Usable) :
    reduce bits s = .ok (Depth.reduce bits s) ∧ (Depth.reduce bits s).Usable := by
  rw [reduce, levelStep_eq_ok hbits]
  refine ⟨rfl, by rw [Depth.reduce_size]; exact hs.size_pos, ?_⟩
  exact hs.candidates_pos

theorem recenter_eq_ok (hts : ts.Sound) (hs : s.Usable) : recenter ts s = .ok (Depth.recenter ts s) := by
  have hlen := Fit.length_assignment none ts s
  have ha := Fit.assignment_lt none ts hs.size_pos
  rw [recenter, assign_eq_ok none hts hs, ok_bind]
  show (residuals ts s (Fit.assignment none ts s) >>= _) = _
  rw [residuals_eq_ok hts.inOrder hs hlen ha, ok_bind,
    fits_residuals_eq_ok hts.inOrder hs hlen ha, ok_bind]
  refine (foldlM_eq_ok (fun t : PaletteSet α => s.SameShape t) ?_ (.refl s)).1
  rintro t ⟨p, k⟩ hslot ht
  obtain ⟨q, hq, hk⟩ := List.mem_flatMap.1 hslot
  obtain ⟨j, hj, heq⟩ := List.mem_map.1 hk
  cases heq
  dsimp only
  cases Depth.slotMean s (Reseed.residuals ts s (Fit.assignment none ts s)) p k with
  | none => exact ⟨rfl, ht⟩
  | some c =>
    refine ⟨change_eq_ok ?_ ?_ _, ht.changeColor _ _ _⟩
    · rw [ht.size_eq]
      exact List.mem_range.1 hq
    · rw [ht.slots_eq]
      exact List.mem_range.1 hj

theorem correctOnce_eq_ok (hbits : 1 ≤ bits) (hts : ts.Sound) (hs : s.Usable) :
    correctOnce bits ts s = .ok (Depth.correctOnce bits ts s) ∧ (Depth.correctOnce bits ts s).Usable := by
  rw [correctOnce, Depth.correctOnce]
  split
  · exact reduce_eq_ok hbits hs
  · rw [recenter_eq_ok hts hs]
    exact reduce_eq_ok hbits ((Depth.recenter_sameShape ts s).usable hs)

end Depth

/-! ## Composing -/

/-- The number of a pixel among all slots of its palette. -/
def pixelIndex (rule : Option (MixRule α)) (s : PaletteSet α) (p : Nat) (x : Compose.Spot) : Result Nat :=
  match rule with
  | none => do
    let candidates ← candidates s p
    let nearest ← least (candidates.map (Rgb.ofBytes x.color).sqDist)
    pure (nearest.1 + s.firstCandidate)
  | some r => do
    let candidates ← candidates s p
    let m ← search r (Rgb.ofBytes x.color) candidates
    pure (m.slotAt x.rank + s.firstCandidate)

/-- The mean error of the pixels that are not reserved. -/
def composedError (s : PaletteSet α) (spots : List (Nat × Compose.Spot)) (numbers : List Nat) : Result α := do
  let kept := (spots.zip numbers).filter fun x => !x.1.2.reserved
  let errors ← kept.mapM fun x => do
    let c ← color s x.1.1 x.2
    pure (c.sqDist (Rgb.ofBytes x.1.2.color))
  if kept.isEmpty then pure (Scalar.ofNat 0) else quotient (Scalar.sum errors) kept.length

/-- The composition of a canvas with its tiles. There have to be colours to compose with. -/
def compose (dithering : Option (Dithering α)) (c : Canvas) (ts : TileSet) (s : PaletteSet α) (cancelled : Bool) :
    Result (Composition α) :=
  if s.size = 0 ∨ s.candidateCount = 0 then .error .noColours
  else do
    let rule := dithering.map Dithering.rule
    let chosen ← assign rule ts s.snapped
    let assigned := chosen.map Prod.fst
    fits (assigned.length == c.tiling.tiles)
    let spots := Compose.spots (dithering.map Dithering.pattern) c.tiling c.work c.reserved assigned
    let numbers ← spots.mapM fun q => do
      let k ← pixelIndex rule s.snapped q.1 q.2
      pure (if q.2.reserved then 0 else k)
    fits (numbers.length == c.tiling.tiles * c.tiling.area)
    let mse ← composedError s.snapped spots numbers
    pure
      { slots := s.toBytes.slots
        palettes := s.toBytes.palettes
        tilePalettes := (List.range c.tiling.rows).map fun r => (assigned.drop (r * c.tiling.cols)).take c.tiling.cols
        colorIndices := (Compose.placed c.tiling numbers.toArray).toLists
        tileWidth := c.tiling.tileWidth
        tileHeight := c.tiling.tileHeight
        mse
        cancelled
        transparentIndex := if s.zero.isTransparent then some 0 else none }

section Composing

variable {s : PaletteSet α} {p : Nat}

theorem pixelIndex_eq_ok (rule : Option (MixRule α)) (hs : s.Usable) (hp : p < s.size) (x : Compose.Spot) :
    pixelIndex rule s p x = .ok (Compose.pixelIndex rule s p x) := by
  have hne := PaletteSet.candidatesOf_ne_nil hp hs.candidates_pos
  cases rule with
  | none =>
    rw [pixelIndex, candidates_eq_ok hp, ok_bind, least_eq_ok (by simpa using hne), ok_bind, choose_fst]
    rfl
  | some r =>
    obtain ⟨m, hm, hsearch⟩ := search_eq_ok r (Rgb.ofBytes x.color) hne
    rw [pixelIndex, candidates_eq_ok hp, ok_bind, hm, ok_bind, Compose.pixelIndex, Compose.mixIndex, hsearch]
    rfl

theorem composedError_eq_ok {spots : List (Nat × Compose.Spot)} {numbers : List Nat}
    (h : ∀ x ∈ spots.zip numbers, x.1.1 < s.size ∧ x.2 < s.slots) :
    composedError s spots numbers = .ok (Compose.meanError s spots numbers) := by
  rw [composedError, Compose.meanError]
  dsimp only
  rw [mapM_eq_ok (g := fun x => Compose.pixelError s x.1.1 x.1.2 x.2), ok_bind]
  · split
    · rfl
    · rename_i hne
      have hpos : 0 < ((spots.zip numbers).filter fun x => !x.1.2.reserved).length :=
        List.length_pos_iff.2 fun h => hne (List.isEmpty_iff.2 h)
      exact quotient_eq_ok _ hpos
  · intro x hx
    obtain ⟨hp, hk⟩ := h x (List.mem_of_mem_filter hx)
    obtain ⟨c, hc⟩ := s.exists_color? hp hk
    rw [color_eq_ok hc, ok_bind, Compose.pixelError, hc]
    rfl

theorem length_spots {height width : Nat} (pattern : Option Dither.Pattern) (t : Tiling height width)
    (work : Raster (Rgb UInt8) height width) (reserved : Raster Bool height width) {assigned : List Nat}
    (h : assigned.length = t.tiles) : (Compose.spots pattern t work reserved assigned).length = t.tiles * t.area := by
  rw [list_eq_ofFn_getD h, Compose.spots_eq]
  simp [List.length_flatten, List.map_ofFn, Function.comp_def]

/-- Each pixel has a slot of its palette. -/
theorem numbers_eq_ok (rule : Option (MixRule α)) (hs : s.Usable) {spots : List (Nat × Compose.Spot)}
    (h : ∀ q ∈ spots, q.1 < s.size) :
    (spots.mapM fun q => do
        let k ← pixelIndex rule s q.1 q.2
        pure (if q.2.reserved then 0 else k)) = .ok (Compose.indices rule s spots) ∧
      ∀ x ∈ spots.zip (Compose.indices rule s spots), x.1.1 < s.size ∧ x.2 < s.slots := by
  have hindices := Compose.indices_eq_map rule s spots h
  constructor
  · rw [hindices]
    refine mapM_eq_ok ?_
    intro q hq
    rw [pixelIndex_eq_ok rule hs (h q hq)]
    rfl
  · intro x hx
    obtain ⟨hspot, hnumber⟩ := List.of_mem_zip hx
    rw [hindices] at hnumber
    obtain ⟨q, hq, hx2⟩ := List.mem_map.1 hnumber
    refine ⟨h _ hspot, ?_⟩
    rw [← hx2]
    exact Compose.number_lt q.2 (h q hq) hs.candidates_pos

/-- **Composing under guard.** Palettes that can be used are composed with sound tiles of a canvas. -/
theorem compose_eq_ok (dithering : Option (Dithering α)) {c : Canvas} {ts : TileSet} (hts : ts.Sound)
    (hlen : ts.tiles.length = c.tiling.tiles) (hs : s.Usable) (cancelled : Bool) :
    compose dithering c ts s cancelled = .ok (Compose.compose dithering c ts s cancelled) := by
  have hsnapped : s.snapped.Usable := ⟨by rw [PaletteSet.snapped_size]; exact hs.size_pos, hs.candidates_pos⟩
  have hcolors : ¬ (s.size = 0 ∨ s.candidateCount = 0) := by
    have := hs.size_pos
    have := hs.candidates_pos
    omega
  rw [compose, if_neg hcolors]
  generalize hrule : dithering.map Dithering.rule = rule
  have hassigned : (Fit.assignment rule ts s.snapped).length = c.tiling.tiles := by rw [Fit.length_assignment, hlen]
  have hspots : ∀ q ∈ Compose.spots (dithering.map Dithering.pattern) c.tiling c.work c.reserved
      (Fit.assignment rule ts s.snapped), q.1 < s.snapped.size :=
    fun q hq => Fit.assignment_lt rule ts hsnapped.size_pos _ (Compose.mem_spots hq)
  have hlength := length_spots (dithering.map Dithering.pattern) c.tiling c.work c.reserved hassigned
  have hindices := Compose.indices_eq_map rule s.snapped _ hspots
  obtain ⟨hnumbers, hslots⟩ := numbers_eq_ok rule hsnapped hspots
  dsimp only
  rw [assign_eq_ok rule hts hsnapped, ok_bind]
  show (fits ((Fit.assignment rule ts s.snapped).length == c.tiling.tiles) >>= _) = _
  rw [fits_eq_ok (by simpa using hassigned), ok_bind]
  show (List.mapM _ (Compose.spots _ _ _ _ (Fit.assignment rule ts s.snapped)) >>= _) = _
  rw [hnumbers, ok_bind, fits_eq_ok (by rw [hindices]; simpa using hlength), ok_bind]
  show (composedError s.snapped (Compose.spots _ _ _ _ (Fit.assignment rule ts s.snapped)) _ >>= _) = _
  rw [composedError_eq_ok hslots]
  subst hrule
  rfl

-- Without palettes the guard refuses what the library would do with its defaults.
example (c : Canvas) : compose (α := Rat) none c c.tiles ⟨.unique, 2, []⟩ false = .error .noColours := rfl

end Composing

end Guarded

end Tessera
