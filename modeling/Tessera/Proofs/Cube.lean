import Mathlib
import Tessera.Proofs.BitDepth
import Tessera.Proofs.Budget
import Tessera.Proofs.Correction
import Tessera.Proofs.Rounding
/-!
# Palettes stay in the colour cube

In exact arithmetic every way in which a run changes a colour keeps its channels within `0 … 255`: a colour moves a part of
the way to a sample, at a rate in the unit interval, or becomes a colour of the image, a weighted mean of such colours, the
last colour of its palette, or the nearest level. The starting colours are such means too, or centres of k-means, of which it
is assumed that they lie in the box of the points (`Start.CentersInBox`). So no palettes of a run leave the cube
(`quantize_inCube`), and keeping bytes within their range changes nothing.
-/

namespace Tessera

/-! ## Colours -/

namespace Rgb

/-- All channels are between two bounds. -/
def Within (lo hi : Rat) (c : Rgb Rat) : Prop := ∀ x ∈ c.toList, lo ≤ x ∧ x ≤ hi

/-- All channels are between the least and the greatest byte. -/
def InCube (c : Rgb Rat) : Prop := c.Within 0 255

theorem within_iff {lo hi : Rat} {c : Rgb Rat} :
    c.Within lo hi ↔ (lo ≤ c.r ∧ c.r ≤ hi) ∧ (lo ≤ c.g ∧ c.g ≤ hi) ∧ (lo ≤ c.b ∧ c.b ≤ hi) := by
  simp [Within, toList]

theorem Within.map {lo hi lo' hi' : Rat} {c : Rgb Rat} (hc : c.Within lo hi) {f : Rat → Rat}
    (hf : ∀ x, lo ≤ x → x ≤ hi → lo' ≤ f x ∧ f x ≤ hi') : (c.map f).Within lo' hi' := by
  intro y hy
  obtain ⟨x, hx, rfl⟩ : ∃ x ∈ c.toList, f x = y := List.mem_map.1 hy
  exact hf x (hc x hx).1 (hc x hx).2

theorem inCube_ofBytes (c : Rgb UInt8) : (ofBytes c : Rgb Rat).InCube := by
  intro y hy
  obtain ⟨x, -, rfl⟩ : ∃ x ∈ c.toList, (Scalar.ofNat x.toNat : Rat) = y := List.mem_map.1 hy
  have hx : x.toNat ≤ 255 := by have := x.toNat_lt; omega
  rw [Scalar.ofNat_rat]
  exact ⟨x.toNat.cast_nonneg, by exact_mod_cast hx⟩

theorem inCube_ofInts {c : Rgb Int} (h : c.IsBytes) : (ofInts c : Rgb Rat).InCube := by
  intro y hy
  obtain ⟨n, hn, rfl⟩ : ∃ n ∈ c.toList, (n : Rat) = y := List.mem_map.1 hy
  obtain ⟨hlow, hhigh⟩ := h n hn
  exact ⟨by exact_mod_cast hlow, by exact_mod_cast hhigh⟩

theorem inCube_black : (fill (Scalar.ofNat 0) : Rgb Rat).InCube := by
  rw [Scalar.ofNat_rat]
  exact within_iff.2 (by norm_num [fill])

/-- A part of the way from one colour of the cube to another stays in it. -/
theorem InCube.towards {c t : Rgb Rat} (hc : c.InCube) (ht : t.InCube) {rate : Rat} (hlow : 0 ≤ rate) (hhigh : rate ≤ 1) :
    (c.towards rate t).InCube := by
  have hmix : ∀ x y : Rat, 0 ≤ x ∧ x ≤ 255 → 0 ≤ y ∧ y ≤ 255 → 0 ≤ x + rate * (y - x) ∧ x + rate * (y - x) ≤ 255 := by
    intro x y hx hy
    constructor <;> nlinarith
  obtain ⟨hr, hg, hb⟩ := within_iff.1 hc
  obtain ⟨hr', hg', hb'⟩ := within_iff.1 ht
  exact within_iff.2 ⟨hmix _ _ hr hr', hmix _ _ hg hg', hmix _ _ hb hb'⟩

theorem Within.add {lo hi lo' hi' : Rat} {c d : Rgb Rat} (hc : c.Within lo hi) (hd : d.Within lo' hi') :
    (c.add d).Within (lo + lo') (hi + hi') := by
  obtain ⟨hr, hg, hb⟩ := within_iff.1 hc
  obtain ⟨hr', hg', hb'⟩ := within_iff.1 hd
  exact within_iff.2 ⟨⟨add_le_add hr.1 hr'.1, add_le_add hr.2 hr'.2⟩, ⟨add_le_add hg.1 hg'.1, add_le_add hg.2 hg'.2⟩,
    add_le_add hb.1 hb'.1, add_le_add hb.2 hb'.2⟩

/-- The weighted sum of colours of the cube lies between zero and the weight times the greatest byte. -/
theorem within_sum_scale {β : Type} (xs : List β) {f : β → Rgb Rat} {w : β → Rat} (hf : ∀ x ∈ xs, (f x).InCube)
    (hw : ∀ x ∈ xs, 0 ≤ w x) : (sum (xs.map fun x => (f x).scale (w x))).Within 0 ((xs.map w).sum * 255) := by
  induction xs with
  | nil => simp [within_iff, sum, fill, Scalar.ofNat_rat]
  | cons x xs ih =>
    have hwx := hw x List.mem_cons_self
    have hfirst : ((f x).scale (w x)).Within 0 (w x * 255) := (hf x List.mem_cons_self).map fun y hlow hhigh =>
      ⟨mul_nonneg hlow hwx, by rw [mul_comm]; exact mul_le_mul_of_nonneg_left hhigh hwx⟩
    have hrest := ih (fun y hy => hf y (List.mem_cons_of_mem x hy)) fun y hy => hw y (List.mem_cons_of_mem x hy)
    have hboth := hfirst.add hrest
    rwa [zero_add, ← add_mul, ← sum_cons] at hboth

/-- **Means.** The weighted mean of colours of the cube is in the cube. -/
theorem inCube_mean {β : Type} (xs : List β) {f : β → Rgb Rat} {w : β → Rat} (hf : ∀ x ∈ xs, (f x).InCube)
    (hw : ∀ x ∈ xs, 0 ≤ w x) (hpos : 0 < (xs.map w).sum) :
    ((sum (xs.map fun x => (f x).scale (w x))).map (· / (xs.map w).sum)).InCube := by
  refine (within_sum_scale xs hf hw).map fun x hlow hhigh => ⟨div_nonneg hlow hpos.le, ?_⟩
  rw [div_le_iff₀ hpos, mul_comm]
  exact hhigh

/-- The nearest level of a value in the range of bytes is in that range. -/
theorem InCube.snapTo {c : Rgb Rat} (hc : c.InCube) {bits : Nat} (hb : 1 ≤ bits) :
    (c.map (Level.snapTo (Level.step bits))).InCube := by
  have hstep := Level.step_pos hb
  have hlast : ((2 ^ bits - 1 : Nat) : Rat) * Level.step bits = 255 := by
    rw [Level.cast_last, Level.step_eq]
    have := Level.last_pos hb
    field_simp
  refine hc.map fun x hlow hhigh => ?_
  rw [Level.snapTo_rat]
  have hfirst : 0 ≤ ⌊x / Level.step bits + 1 / 2⌋ := Int.floor_nonneg.2 (by positivity)
  have htop : ⌊x / Level.step bits + 1 / 2⌋ ≤ ((2 ^ bits - 1 : Nat) : ℤ) := by
    rw [← Int.lt_add_one_iff, Int.floor_lt]
    have hdiv : x / Level.step bits ≤ ((2 ^ bits - 1 : Nat) : Rat) := by
      rw [div_le_iff₀ hstep, hlast]
      exact hhigh
    push_cast at hdiv ⊢
    linarith
  constructor
  · exact mul_nonneg (by exact_mod_cast hfirst) hstep.le
  · rw [← hlast]
    refine mul_le_mul_of_nonneg_right ?_ hstep.le
    exact_mod_cast htop

end Rgb

/-! ## Palettes -/

namespace PaletteSet

/-- All colours are in the cube. -/
def InCube (s : PaletteSet Rat) : Prop := ∀ p k c, s.color? p k = some c → c.InCube

/-- Rounding alone gives the bytes of all channels, and keeping them within the bytes changes none. -/
def Unclipped (s : PaletteSet Rat) : Prop :=
  ∀ p k c, s.color? p k = some c → ∀ x ∈ c.toList, ((Scalar.toByte x).toNat : Rat) = Scalar.rint x

variable {s : PaletteSet Rat}

theorem InCube.unclipped (h : s.InCube) : s.Unclipped := by
  intro p k c hc x hx
  obtain ⟨hlow, hhigh⟩ := h p k c hc x hx
  obtain ⟨n, hn, hnear⟩ := Scalar.exists_rint x
  obtain ⟨hbelow, habove⟩ := abs_le.1 hnear
  have hfirst : -1 < n := by exact_mod_cast (by linarith : (-1 : Rat) < n)
  have hlast : n < 256 := by exact_mod_cast (by linarith : (n : Rat) < 256)
  have hbyte := Scalar.toNat_toByte hn
  rw [show max 0 (min n 255) = n by omega] at hbyte
  rw [hn, ← hbyte]
  rfl

theorem InCube.modifyAt (h : s.InCube) (p slot : Nat) {f : Rgb Rat → Rgb Rat} (hf : ∀ c : Rgb Rat, c.InCube → (f c).InCube) :
    (s.modifyAt p slot f).InCube := by
  intro q k c hc
  rw [color?_modifyAt] at hc
  obtain ⟨d, hd, rfl⟩ := Option.map_eq_some_iff.1 hc
  have hd := h q k d hd
  split
  · exact hf d hd
  · exact hd

theorem InCube.fillSlot (h : s.InCube) (slot : Nat) {c : Rgb Rat} (hc : c.InCube) : (s.fillSlot slot c).InCube := by
  intro q k d hd
  rw [color?_fillSlot] at hd
  obtain ⟨e, he, rfl⟩ := Option.map_eq_some_iff.1 hd
  split
  · exact hc
  · exact h q k e he

/-- Writing to a slot by the policy. -/
theorem InCube.changeColor (h : s.InCube) (p slot : Nat) {f : Rgb Rat → Rgb Rat}
    (hf : ∀ c : Rgb Rat, c.InCube → (f c).InCube) : (s.changeColor p slot f).InCube := by
  unfold PaletteSet.changeColor
  split_ifs
  · exact h
  · cases hfirst : s.color? 0 0 with
    | none => exact h
    | some c => exact h.fillSlot 0 (hf c (h 0 0 c hfirst))
  · exact h.modifyAt p slot hf

theorem inCube_iff : s.InCube ↔ ∀ cs ∈ s.toLists, ∀ c ∈ cs, c.InCube := by
  constructor
  · intro h cs hcs c hc
    obtain ⟨p, hp⟩ := List.mem_iff_getElem?.1 hcs
    obtain ⟨k, hk⟩ := List.mem_iff_getElem?.1 hc
    exact h p k c (by rw [color?_eq_toLists, hp]; exact hk)
  · intro h p k c hc
    rw [color?_eq_toLists] at hc
    obtain ⟨cs, hcs, hk⟩ := Option.bind_eq_some_iff.1 hc
    exact h cs (List.mem_of_getElem? hcs) c (List.mem_of_getElem? hk)

theorem InCube.addSlot (h : s.InCube) {filler : Rgb Rat} (hfiller : filler.InCube) {seeds : List (Rgb Rat)}
    (hseeds : ∀ c ∈ seeds, c.InCube) : (s.addSlot filler seeds).InCube := by
  rw [inCube_iff] at h ⊢
  intro cs hcs c hc
  obtain ⟨v, hv, rfl⟩ := List.mem_map.1 hcs
  obtain ⟨x, hx, rfl⟩ := List.mem_map.1 hv
  have hmem : c ∈ x.1.toList ++ [seeds.getD x.2 filler] := by simpa using hc
  rcases List.mem_append.1 hmem with hold | hnew
  · exact h _ (List.mem_map_of_mem (List.fst_mem_of_mem_zipIdx hx)) c hold
  · rw [List.mem_singleton.1 hnew, List.getD_eq_getElem?_getD]
    cases hseed : seeds[x.2]? with
    | none => exact hfiller
    | some d => exact hseeds d (List.mem_of_getElem? hseed)

theorem InCube.padded (h : s.InCube) (n : Nat) : (s.padded n).InCube :=
  fun p _ c hc => h p _ c (color?_of_padded hc)

theorem InCube.reduce (h : s.InCube) {bits : Nat} (hb : 1 ≤ bits) : (Depth.reduce bits s).InCube := by
  intro p k c hc
  rw [Depth.color?_reduce] at hc
  obtain ⟨d, hd, rfl⟩ := Option.map_eq_some_iff.1 hc
  have hd := h p k d hd
  split
  · exact hd
  · exact hd.snapTo hb

theorem InCube.recenter (h : s.InCube) (ts : TileSet) : (Depth.recenter ts s).InCube := by
  refine Depth.recenter_induct ts h fun t p k c hmean ht => ht.changeColor p k fun _ _ => ?_
  rw [Depth.slotMean_eq] at hmean
  split at hmean
  · rename_i hweight
    cases hmean
    exact Rgb.inCube_mean _ (fun e _ => Rgb.inCube_ofBytes e.color) (fun e _ => e.count.cast_nonneg) hweight
  · cases hmean

/-- A new slot has colours of the image, or the last colours again. -/
theorem InCube.seeded (h : s.InCube) (ts : TileSet) : (Learner.seeded ts s).InCube := by
  refine h.addSlot Rgb.inCube_black fun c hc => ?_
  obtain ⟨⟨cs, p⟩, hcs, rfl⟩ := List.mem_map.1 hc
  have hlast : (cs.getLast?.getD (Rgb.fill (Scalar.ofNat 0))).InCube := by
    cases hget : cs.getLast? with
    | none => exact Rgb.inCube_black
    | some d => exact inCube_iff.1 h cs (List.fst_mem_of_mem_zipIdx hcs) d (List.mem_of_getLast? hget)
  unfold Learner.growthSeed
  dsimp only
  split
  · exact hlast
  · rename_i i _ _
    cases hentry : (List.filter _ _)[i]? with
    | none => exact hlast
    | some x => exact Rgb.inCube_ofBytes _

/-- The starting palettes are in the cube when their parts are. -/
theorem inCube_ofSeeds (zero : ColorZero) {shared transparent : Rgb Rat} (hshared : shared.InCube)
    (htransparent : transparent.InCube) {seeds : List (Rgb Rat)} (hseeds : ∀ c ∈ seeds, c.InCube) :
    (ofSeeds zero shared transparent seeds).InCube := by
  have hpair : ∀ first : Rgb Rat, first.InCube → (⟨zero, 2, seeds.map fun c => #v[first, c]⟩ : PaletteSet Rat).InCube := by
    intro first hfirst
    simp only [inCube_iff, toLists, List.map_map, List.forall_mem_map]
    exact fun c hc => by simpa using ⟨hfirst, hseeds c hc⟩
  cases zero with
  | unique =>
    simp only [inCube_iff, toLists, ofSeeds, List.map_map, List.forall_mem_map]
    exact fun c hc => by simpa using hseeds c hc
  | shared => exact hpair shared hshared
  | transparentAlpha => exact hpair transparent htransparent
  | transparentKey => exact hpair transparent htransparent

end PaletteSet

/-! ## Starting colours -/

theorem Tile.inCube_mean (t : Tile) : (t.mean : Rgb Rat).InCube := by
  rw [mean]
  split
  · exact Rgb.inCube_black
  · rename_i hpos
    have hcount : (Scalar.ofNat t.pixelCount : Rat) = (t.histogram.map fun x => (x.2 : Rat)).sum := by
      rw [Scalar.ofNat_rat, pixelCount, total_eq_sum, Nat.cast_list_sum, List.map_map]
      rfl
    have hweight : 0 < (t.histogram.map fun x => (x.2 : Rat)).sum := by
      rw [← hcount, Scalar.ofNat_rat]
      exact_mod_cast Nat.pos_of_ne_zero hpos
    rw [hcount]
    exact Rgb.inCube_mean t.histogram (fun x _ => Rgb.inCube_ofBytes x.1) (fun x _ => x.2.cast_nonneg) hweight

namespace Cluster

/-- Every channel of every centre lies between those of two points. -/
def InBox (points centers : List (Rgb Rat)) : Prop :=
  ∀ c ∈ centers, ∀ channel ∈ [Rgb.r, Rgb.g, Rgb.b],
    (∃ p ∈ points, channel p ≤ channel c) ∧ ∃ p ∈ points, channel c ≤ channel p

instance (points centers : List (Rgb Rat)) : Decidable (InBox points centers) :=
  inferInstanceAs (Decidable (∀ c ∈ centers, ∀ channel ∈ [Rgb.r, Rgb.g, Rgb.b],
    (∃ p ∈ points, channel p ≤ channel c) ∧ ∃ p ∈ points, channel c ≤ channel p))

variable {points centers : List (Rgb Rat)} (hpoints : ∀ p ∈ points, p.InCube)
include hpoints

theorem InBox.inCube (h : InBox points centers) : ∀ c ∈ centers, c.InCube := by
  intro c hc
  have hchannel : ∀ channel ∈ [Rgb.r, Rgb.g, Rgb.b], 0 ≤ channel c ∧ channel c ≤ 255 := by
    intro channel hchannel
    obtain ⟨⟨p, hp, hlow⟩, q, hq, hhigh⟩ := h c hc channel hchannel
    have hmem : ∀ d : Rgb Rat, channel d ∈ d.toList := by
      intro d
      simp only [List.mem_cons, List.not_mem_nil, or_false] at hchannel
      rcases hchannel with rfl | rfl | rfl <;> simp [Rgb.toList]
    exact ⟨(hpoints p hp _ (hmem p)).1.trans hlow, hhigh.trans (hpoints q hq _ (hmem q)).2⟩
  exact Rgb.within_iff.2 ⟨hchannel Rgb.r (by simp), hchannel Rgb.g (by simp), hchannel Rgb.b (by simp)⟩

theorem inCube_getD (i : Nat) : (points.getD i (Rgb.fill (Scalar.ofNat 0))).InCube := by
  rw [List.getD_eq_getElem?_getD]
  cases hi : points[i]? with
  | none => exact Rgb.inCube_black
  | some p => exact hpoints p (List.mem_of_getElem? hi)

theorem inCube_eachOwn (seeds : List Nat) (k : Nat) : ∀ c ∈ (eachOwn points seeds k).centers, c.InCube := by
  intro c hc
  obtain ⟨i, -, rfl⟩ := List.mem_map.1 hc
  split <;> exact inCube_getD hpoints _

variable {weights : List Rat} (hweights : ∀ w ∈ weights, 0 ≤ w)
include hweights

/-- The weighted means of clusters. -/
theorem inCube_recenter (labels : List Nat) (hcenters : ∀ c ∈ centers, c.InCube) :
    ∀ c ∈ recenter points weights labels centers, c.InCube := by
  have hweighted : ∀ x ∈ points.zipWith (fun p w => (⟨p, w⟩ : Weighted Rat)) weights, x.point.InCube ∧ 0 ≤ x.weight := by
    intro x hx
    rw [← List.map_uncurry_zip_eq_zipWith] at hx
    obtain ⟨y, hy, rfl⟩ := List.mem_map.1 hx
    exact ⟨hpoints _ (List.of_mem_zip hy).1, hweights _ (List.of_mem_zip hy).2⟩
  intro c hc
  obtain ⟨⟨old, i⟩, hold, rfl⟩ := List.mem_map.1 hc
  dsimp only
  split
  · rename_i sum w hsum hw
    split
    · rename_i hpos
      -- both parts are read at the same cluster
      rw [sumsOf, List.getElem?_map] at hsum hw
      obtain ⟨j, hj, rfl⟩ := Option.map_eq_some_iff.1 hsum
      obtain ⟨l, hl, rfl⟩ := Option.map_eq_some_iff.1 hw
      obtain rfl := Option.some.inj (hj.symm.trans hl)
      rw [Scalar.sum_rat] at hpos ⊢
      refine Rgb.inCube_mean _ (fun x hx => ?_) (fun x hx => ?_) hpos
      all_goals obtain ⟨y, hy, rfl⟩ := List.mem_map.1 hx
      · exact (hweighted _ (List.of_mem_zip (List.mem_of_mem_filter hy)).1).1
      · exact (hweighted _ (List.of_mem_zip (List.mem_of_mem_filter hy)).1).2
    · exact hcenters old (List.fst_mem_of_mem_zipIdx hold)
  · exact hcenters old (List.fst_mem_of_mem_zipIdx hold)

/-- K-means with its repair, when its centres lie in the box of the points. -/
theorem inCube_refined {means : Means Rat} {seeds : List Nat} {iterations : Nat}
    (hbox : InBox points
      (means points weights (seeds.map fun i => points.getD i (Rgb.fill (Scalar.ofNat 0))) iterations).2) :
    ∀ c ∈ (refined means points weights seeds iterations).centers, c.InCube := by
  have hcenters := hbox.inCube hpoints
  rw [refined]
  dsimp only
  split
  · exact hcenters
  · exact inCube_recenter hpoints hweights _ hcenters

end Cluster

namespace Start

/-- The points that are clustered: the mean colours of the tiles that count. -/
def points (ts : TileSet) : List (Rgb Rat) := (used ts).map Tile.mean

/-- The weights of the points: the pixels of the tiles. -/
def weights (ts : TileSet) : List Rat := (used ts).map fun t => Scalar.ofNat t.pixelCount

/-- K-means, when it is called for `k` palettes, gives centres in the box of its points. -/
def CentersInBox (means : Cluster.Means Rat) (ts : TileSet) (k : Nat) : Prop :=
  k < Cluster.distinct (points ts) →
    Cluster.InBox (points ts) (means (points ts) (weights ts)
      ((Cluster.seeds (points ts) (weights ts) k).map fun i => (points ts).getD i (Rgb.fill (Scalar.ofNat 0)))
      (max 1 Cluster.defaultRounds)).2

instance (means : Cluster.Means Rat) (ts : TileSet) (k : Nat) : Decidable (CentersInBox means ts k) :=
  inferInstanceAs (Decidable (_ → _))

theorem inCube_seeds {means : Cluster.Means Rat} {ts : TileSet} {k : Nat} (h : CentersInBox means ts k) :
    ∀ c ∈ seeds means ts k, c.InCube := by
  have hpoints : ∀ p ∈ points ts, p.InCube := by
    intro p hp
    obtain ⟨t, -, rfl⟩ := List.mem_map.1 hp
    exact t.inCube_mean
  have hweights : ∀ w ∈ weights ts, 0 ≤ w := by
    intro w hw
    obtain ⟨t, -, rfl⟩ := List.mem_map.1 hw
    exact t.pixelCount.cast_nonneg
  rw [seeds]
  split
  · intro c hc
    rw [List.eq_of_mem_replicate hc]
    exact Rgb.inCube_black
  · change ∀ c ∈ (Cluster.clusters means (points ts) (weights ts) k Cluster.defaultRounds).centers, c.InCube
    rw [Cluster.clusters]
    split
    · exact Cluster.inCube_eachOwn hpoints _ k
    · exact Cluster.inCube_refined hpoints hweights (h (by omega))

end Start

/-! ## Rates -/

theorem Floats.value_le_of_le {x y : Float} (hx : x.isFinite) (hy : y.isFinite) (h : x ≤ y) : value x ≤ value y := by
  rw [le_iff_compare, compare_eq (parts_canonical x) (parts_canonical y) hx hy, Option.any_some] at h
  refine compare_le_iff_le.1 fun hgt => ?_
  rw [show compare (ratio (parts x)) (ratio (parts y)) = .gt from hgt] at h
  cases h

/-- A number of the unit interval stands for a rational number of it. -/
theorem Floats.value_unit {x : Float} (hzero : 0.0 ≤ x) (hone : x ≤ 1.0) : 0 ≤ value x ∧ value x ≤ 1 := by
  have hfinite := isFinite_of_le_of_le (by decide +kernel) (by decide +kernel) hzero hone
  have hlow := value_le_of_le (by decide +kernel) hfinite hzero
  have hhigh := value_le_of_le hfinite (by decide +kernel) hone
  have hfirst : value 0.0 = 0 := rfl
  have hparts : parts 1.0 = .finite .positive (2 ^ 52) (-52) (by decide) := rfl
  have hlast : value 1.0 = 1 := by
    rw [value, hparts, ratio_positive, size]
    norm_num
  rw [hfirst] at hlow
  rw [hlast] at hhigh
  exact ⟨hlow, hhigh⟩

namespace Draft

variable {d : Draft} {s : Settings Float}

/-- The learning rates of a checked draft lie in the unit interval. -/
theorem exact_rates (h : d.settings = .ok s) :
    (0 ≤ s.exact.startRate ∧ s.exact.startRate ≤ 1) ∧ 0 ≤ s.exact.endRate ∧ s.exact.endRate ≤ 1 := by
  obtain ⟨-, halpha, hfinal⟩ := settings_fields h
  have hgiven : ∀ f : Field, f.bounds? = some (.float 0.0, .float 1.0) → f.isWhole = false → ∀ first : Rat,
      0 ≤ first ∧ first ≤ 1 → 0 ≤ ((d.scalar? f).map Floats.value).getD first ∧
        ((d.scalar? f).map Floats.value).getD first ≤ 1 := by
    intro f hb hf first hfirst
    cases hx : d.scalar? f with
    | none => exact hfirst
    | some x =>
      obtain ⟨hzero, hone⟩ := scalar?_unit hb hf (checkBounded_of_settings h f) hx
      exact Floats.value_unit hzero hone
  have hratio : ∀ n m : Nat, n ≤ m → 0 < m → 0 ≤ (Scalar.ratio n m : Rat) ∧ (Scalar.ratio n m : Rat) ≤ 1 := by
    intro n m hle hpos
    have hvalue : (Scalar.ratio n m : Rat) = n / m := rfl
    rw [hvalue, div_le_one (by exact_mod_cast hpos)]
    exact ⟨by positivity, by exact_mod_cast hle⟩
  have hstart : s.exact.startRate = ((d.scalar? .alpha).map Floats.value).getD
      (if s.dither = .slow then Scalar.ratio 1 10 else Scalar.ratio 3 10) := by
    rw [← halpha]
    rfl
  have hend : s.exact.endRate = ((d.scalar? .finalAlpha).map Floats.value).getD
      (if s.dither = .slow then Scalar.ratio 2 100 else Scalar.ratio 5 100) := by
    rw [← hfinal]
    rfl
  rw [hstart, hend]
  refine ⟨hgiven .alpha rfl rfl _ ?_, hgiven .finalAlpha rfl rfl _ ?_⟩
  · split
    · exact hratio 1 10 (by decide) (by decide)
    · exact hratio 3 10 (by decide) (by decide)
  · split
    · exact hratio 2 100 (by decide) (by decide)
    · exact hratio 5 100 (by decide) (by decide)

end Draft

/-! ## Runs -/

namespace Plan

variable {p : Plan Rat}

/-- The rates of a run lie between that of the start and that of the end. -/
theorem IsRate.mem_unit {rate : Rat} (h : p.IsRate rate)
    (hstart : 0 ≤ p.settings.startRate ∧ p.settings.startRate ≤ 1)
    (hend : 0 ≤ p.settings.endRate ∧ p.settings.endRate ≤ 1) : 0 ≤ rate ∧ rate ≤ 1 := by
  have hbetween : ∀ x y : Rat, 0 ≤ x ∧ x ≤ 1 → 0 ≤ y ∧ y ≤ 1 → rate ∈ Set.uIcc x y → 0 ≤ rate ∧ rate ≤ 1 := by
    intro x y hx hy hrate
    rcases Set.mem_uIcc.1 hrate with hxy | hxy
    · exact ⟨hx.1.trans hxy.1, hxy.2.trans hy.2⟩
    · exact ⟨hy.1.trans hxy.1, hxy.2.trans hx.2⟩
  rcases h with hgrow | ⟨rates, hrates, hrate⟩ | ⟨x, hx, hrate⟩
  · obtain ⟨k, -, rfl⟩ := List.mem_map.1 hgrow
    exact hbetween _ _ hstart hstart (Schedule.rate_mem _ _ _ _)
  · have hmem : rate ∈ p.schedule.rates 0 (p.settings.replaceIterations * p.block) := by
      rw [← Schedule.flatten_blockRates]
      exact List.mem_flatten_of_mem hrates hrate
    obtain ⟨k, -, rfl⟩ := List.mem_map.1 hmem
    exact hbetween _ _ hstart hend (Schedule.rate_mem _ _ _ _)
  · have hmem : rate ∈ p.schedule.rates p.replaceTotal p.finalTotal := by
      rw [← Schedule.flatMap_stretches p.schedule p.replaceTotal p.finalTotal p.block_pos]
      exact List.mem_flatMap.2 ⟨x, hx, hrate⟩
    obtain ⟨k, -, rfl⟩ := List.mem_map.1 hmem
    exact hbetween _ _ hstart hend (Schedule.rate_mem _ _ _ _)

/-- **The cube over a run.** No set that a run reaches leaves the cube. -/
theorem Reaches.inCube {s : PaletteSet Rat} (h : p.Reaches s) (hbits : 1 ≤ p.settings.bitsPerChannel)
    (hstart : 0 ≤ p.settings.startRate ∧ p.settings.startRate ≤ 1) (hend : 0 ≤ p.settings.endRate ∧ p.settings.endRate ≤ 1)
    (hshared : p.settings.sharedColor.IsBytes) (htransparent : p.settings.transparentColor.IsBytes)
    (hmeans : Start.CentersInBox p.means p.tiles p.settings.numPalettes) : s.InCube := by
  induction h with
  | start =>
    exact PaletteSet.inCube_ofSeeds _ (Rgb.inCube_ofInts hshared) (Rgb.inCube_ofInts htransparent)
      (Start.inCube_seeds hmeans)
  | moved q _ _ hrate ih =>
    obtain ⟨hlow, hhigh⟩ := hrate.mem_unit hstart hend
    exact ih.changeColor _ _ fun c hc => hc.towards (Rgb.inCube_ofBytes _) hlow hhigh
  | seeded _ _ ih => exact ih.seeded p.tiles
  | reseeded q slot c _ ih => exact ih.changeColor _ _ fun _ _ => Rgb.inCube_ofBytes c
  | recentred _ ih => exact ih.recenter p.tiles
  | reduced _ ih => exact ih.reduce hbits
  | padded _ ih => exact ih.padded _

end Plan

/-- **The colour cube.** Run an image with checked settings whose shared and transparent colours are bytes in exact
arithmetic, with any tiling and reserved pixels, any audience and any source of orders, and let k-means keep to the box of
the mean colours of the tiles. Then every palette set that the run can come to by its steps is in the colour cube, and its
bytes are its rounded channels, none of which has to be kept within the bytes. Those are all sets that are at work after the
start, after every sample, slot, replacement, reduction and corrective pass, and all that the run reports, keeps as its best
and composes. -/
theorem quantize_inCube {γ : Type} [OrderSource γ] {d : Draft} {s : Settings Float} (hs : d.settings = .ok s)
    (hshared : s.sharedColor.IsBytes) (htransparent : s.transparentColor.IsBytes) (im : Image)
    (t : Tiling im.height im.width) (r : Raster Bool im.height im.width) {means : Cluster.Means Rat}
    (hmeans : Start.CentersInBox means (Plan.make s.exact im t r means).tiles s.numPalettes) (a : Audience Rat) (g : γ) :
    (∀ x, (Plan.make s.exact im t r means).Reaches x → x.InCube ∧ x.Unclipped) ∧
      (∀ x ∈ (Plan.make s.exact im t r means).history g, (Plan.make s.exact im t r means).Reaches x) ∧
      ((Plan.make s.exact im t r means).run a g).Reached (Plan.make s.exact im t r means) := by
  obtain ⟨hstart, hend⟩ := Draft.exact_rates hs
  refine ⟨fun x hx => ?_, Plan.history_reaches g, Plan.run_reached _ a g⟩
  have hcube := hx.inCube (Nat.le_of_succ_le (Draft.bits_mem hs).1) hstart hend hshared htransparent hmeans
  exact ⟨hcube, hcube.unclipped⟩

/-- One palette for two tiles of different colours, so that k-means is called. -/
theorem quantize_inCube_columns :
    ∃ (s : Settings Float) (p : Plan Rat), (Draft.small.setAll [(.numPalettes, .int 1)]).settings = .ok s ∧
      p = .columns s ∧
      s.numPalettes < Cluster.distinct (Start.points p.tiles) ∧
      ∀ x ∈ p.history (default : Generator), x.InCube ∧ x.Unclipped := by
  have hdraft : ((Draft.small.setAll [(.numPalettes, .int 1)]).settings.toOption.map fun s =>
      (s.dither, s.bitsPerChannel, s.numPalettes, s.sharedColor, s.transparentColor)) =
      some (.off, 5, 1, ⟨0, 0, 0⟩, ⟨16, 32, 48⟩) := by decide +kernel
  cases hs : (Draft.small.setAll [(.numPalettes, .int 1)]).settings with
  | error e =>
    rw [hs] at hdraft
    cases hdraft
  | ok s =>
    rw [hs] at hdraft
    simp only [Except.toOption, Option.map_some, Option.some.injEq, Prod.mk.injEq] at hdraft
    obtain ⟨hdither, hbits, hcount, hshared, htransparent⟩ := hdraft
    have htiles : (Plan.columns s).tiles = TileSet.extract (.columns Nat.two_pos)
        ((⟨2, 2, Buffer.small.pixels 2 2 3⟩ : Image).colors.map (Level.snapColor Rat 5)) (.ofFn fun _ _ => false) := by
      have hwork : Plan.workColors s.exact ⟨2, 2, Buffer.small.pixels 2 2 3⟩ =
          (⟨2, 2, Buffer.small.pixels 2 2 3⟩ : Image).colors.map (Level.snapColor Rat 5) := by
        have hexact : s.exact.useDither = false ∧ s.exact.bitsPerChannel = 5 :=
          ⟨by simp [Settings.useDither, Settings.exact, hdither], hbits⟩
        rw [Plan.workColors, hexact.1, hexact.2]
        rfl
      rw [Plan.columns, Plan.make, Canvas.tiles, hwork]
    have hmeans : Start.CentersInBox Cluster.lloyd (Plan.columns s).tiles s.numPalettes := by
      rw [htiles, hcount]
      decide +kernel
    obtain ⟨hcube, hhistory, -⟩ := quantize_inCube hs (by rw [hshared]; decide) (by rw [htransparent]; decide)
      ⟨2, 2, Buffer.small.pixels 2 2 3⟩ (.columns Nat.two_pos) (.ofFn fun _ _ => false) hmeans ⟨.never, false⟩
      (default : Generator)
    exact ⟨s, _, rfl, rfl, by rw [htiles, hcount]; decide +kernel, fun x hx => hcube x (hhistory x hx)⟩

end Tessera
