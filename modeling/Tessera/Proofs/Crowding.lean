import Mathlib
import Tessera.Proofs.Growth
import Tessera.Proofs.Mixes
/-!
# Crowded candidates

A mix pairs the four nearest candidates only. Where a point lies between a colour and several copies of another one that is
nearer, one copy more can fill the four places and leave the colour out, and then nothing is mixed any longer
(`Crowd.cost_crowded`). So palettes of four candidates or more can lose by a new slot, and palettes of two or more by being
padded beyond four. `Crowd.mixErrors_kept_iff` says that these are the only cases.
-/

namespace Tessera

/-- A palette set of one palette. -/
def PaletteSet.single (cs : List (Rgb Rat)) : PaletteSet Rat := ⟨.unique, cs.length, [⟨cs.toArray, List.size_toArray⟩]⟩

theorem PaletteSet.candidatesOf_single (cs : List (Rgb Rat)) : (single cs).candidatesOf 0 = cs := rfl

theorem PaletteSet.candidateCount_single (cs : List (Rgb Rat)) : (single cs).candidateCount = cs.length := rfl

namespace Crowd

/-! ## One point between two colours -/

/-- The tile of one point. -/
def tiles : TileSet := .ofBlocks 1 1 1 1 [[(⟨100, 0, 0⟩, false)]]

/-- The point. -/
def point : Rgb Rat := ⟨100, 0, 0⟩

/-- The colour that is nearest to the point. -/
def near : Rgb Rat := ⟨90, 0, 0⟩

/-- The colour on the other side of the point. -/
def partner : Rgb Rat := ⟨111, 0, 0⟩

/-- A colour that is of no use for the point. -/
def far : Rgb Rat := ⟨200, 0, 0⟩

/-- Of `n` candidates one is the partner and up to three are near; the others are far. -/
def colors (n : Nat) : List (Rgb Rat) := List.replicate (n - 4) far ++ partner :: List.replicate (min (n - 1) 3) near

theorem length_colors {n : Nat} (h : 0 < n) : (colors n).length = n := by
  simp only [colors, List.length_append, List.length_replicate, List.length_cons]
  omega

theorem sqDist_near : point.sqDist near = 100 := by norm_num [point, near, Rgb.sqDist]

theorem sqDist_partner : point.sqDist partner = 121 := by norm_num [point, partner, Rgb.sqDist]

theorem sqDist_far : point.sqDist far = 10000 := by norm_num [point, far, Rgb.sqDist]

/-- The error of the point is its cost. -/
theorem errors_tiles (rule : Option (MixRule Rat)) {s : PaletteSet Rat} (h : s.size = 1) :
    Fit.errors rule tiles s = [[Fit.cost rule (s.candidatesOf 0) point]] := by
  have hpoint : (Rgb.ofBytes ⟨100, 0, 0⟩ : Rgb Rat) = point := rfl
  have hentries : tiles.entries = [⟨⟨100, 0, 0⟩, 1, 0⟩] := rfl
  have htiles : tiles.tiles.length = 1 := rfl
  rw [Fit.errors_eq_map, h, hentries, htiles]
  simp [Fit.entryCost, hpoint, Scalar.ofNat_rat]

variable {rule : MixRule Rat}

theorem candidateCount_single_colors {n : Nat} (h : 0 < n) : (PaletteSet.single (colors n)).candidateCount = n :=
  (PaletteSet.candidateCount_single _).trans (length_colors h)

theorem getLast?_colors {n : Nat} (h : 2 ≤ n) : (colors n).getLast? = some near := by
  obtain ⟨k, hk⟩ := Nat.exists_eq_add_of_le' (show 1 ≤ min (n - 1) 3 by omega)
  rw [colors, hk, List.replicate_succ', ← List.cons_append, ← List.append_assoc, List.getLast?_concat]

/-- With four candidates near, the partner is left out. -/
theorem cost_crowded (rule : MixRule Rat) {n m : Nat} (h : 4 ≤ min (n - 1) 3 + m) :
    Fit.cost (some rule) (colors n ++ List.replicate m near) point = 100 := by
  have hcount : Mix.candidates ≤ (colors n ++ List.replicate m near).countP fun c => point.sqDist c < 121 := by
    simp only [colors, List.countP_append, List.countP_cons, List.countP_replicate, sqDist_far, sqDist_partner, sqDist_near]
    norm_num [Mix.candidates]
    exact h
  rw [Fit.cost_some_of_paired_eq rule point (by simp [colors]) (c := near), sqDist_near]
  intro c hc
  have hlt := Mix.sqDist_lt_of_mem_paired hcount c hc
  have hmem := Mix.paired_subset hc
  simp only [colors, List.mem_append, List.mem_cons, List.mem_replicate] at hmem
  rcases hmem with (⟨-, rfl⟩ | rfl | ⟨-, rfl⟩) | ⟨-, rfl⟩
  · rw [sqDist_far] at hlt
    norm_num at hlt
  · rw [sqDist_partner] at hlt
    norm_num at hlt
  · rfl
  · rfl

section

variable (hlevels : rule.levels = 2 ∨ rule.levels = 4) (hweight : 0 < rule.weight)
include hlevels hweight

/-- With few candidates near, the point is mixed with the partner. -/
theorem cost_colors_lt {n : Nat} (hn : 2 ≤ n) : Fit.cost (some rule) (colors n) point < 100 := by
  have hcount : ((colors n).countP fun c => point.sqDist c ≤ 121) ≤ Mix.candidates := by
    simp only [colors, List.countP_append, List.countP_cons, List.countP_replicate, sqDist_far, sqDist_partner, sqDist_near]
    norm_num [Mix.candidates]
  have hnear : near ∈ Mix.paired point (colors n) :=
    Mix.mem_paired_of_sqDist_le hcount near (by simp [colors]; omega) (by rw [sqDist_near]; norm_num)
  have hpartner : partner ∈ Mix.paired point (colors n) :=
    Mix.mem_paired_of_sqDist_le hcount partner (by simp [colors]) sqDist_partner.le
  obtain ⟨k, hk, hshare⟩ : ∃ k < rule.levels, (k : Rat) / rule.levels = 1 / 2 := by
    rcases hlevels with h | h
    · exact ⟨1, by omega, by rw [h]; norm_num⟩
    · exact ⟨2, by omega, by rw [h]; norm_num⟩
  have hleast := (Mix.cost_isLeast rule (x := point) (List.ne_nil_of_mem (Mix.paired_subset hnear))).2
    ⟨near, hnear, partner, hpartner, k, .inr hk, rfl⟩
  refine hleast.trans_lt ?_
  rw [Mix.trial_eq, hshare]
  norm_num [point, near, partner, Mix.blend, Rgb.sqDist, Rgb.zipWith, Rgb.sub]
  linarith

/-- What is lost at the point when near candidates come in. -/
theorem not_rowsLe {n m : Nat} (hn : 2 ≤ n) (hm : 4 ≤ min (n - 1) 3 + m) {t : PaletteSet Rat} (hsize : t.size = 1)
    (ht : t.candidatesOf 0 = colors n ++ List.replicate m near) :
    ¬ Fit.RowsLe (Fit.errors (some rule) tiles t) (Fit.errors (some rule) tiles (.single (colors n))) := by
  rw [errors_tiles _ hsize, errors_tiles _ (s := .single (colors n)) rfl, ht, cost_crowded rule hm,
    PaletteSet.candidatesOf_single]
  intro hle
  have hcost := cost_colors_lt hlevels hweight hn
  simp only [Fit.RowsLe, List.forall₂_cons, List.Forall₂.nil, and_true] at hle
  exact absurd hcost (not_lt.2 hle)

/-- Palettes of four candidates or more can lose by a new slot. -/
theorem not_rowsLe_addSlot {n : Nat} (hn : 4 ≤ n) :
    ¬ Fit.RowsLe (Fit.errors (some rule) tiles ((PaletteSet.single (colors n)).addSlot near [near]))
      (Fit.errors (some rule) tiles (.single (colors n))) := by
  have hcount := candidateCount_single_colors (show 0 < n by omega)
  refine not_rowsLe hlevels hweight (m := 1) (by omega) (by omega) (PaletteSet.addSlot_size ..) ?_
  exact PaletteSet.candidatesOf_addSlot _ _ _ Nat.zero_lt_one (by omega)

/-- Palettes of two candidates or more can lose by being padded beyond four. -/
theorem not_rowsLe_padded {n m : Nat} (hn : 2 ≤ n) (hm : max n 4 < m) :
    ¬ Fit.RowsLe (Fit.errors (some rule) tiles ((PaletteSet.single (colors n)).padded m))
      (Fit.errors (some rule) tiles (.single (colors n))) := by
  have hcount := candidateCount_single_colors (show 0 < n by omega)
  have hslots : (PaletteSet.single (colors n)).slots = n := length_colors (by omega)
  obtain ⟨c, hlast, hpadded⟩ := PaletteSet.candidatesOf_padded (.single (colors n)) m Nat.zero_lt_one (by omega)
  rw [PaletteSet.candidatesOf_single, getLast?_colors hn] at hlast
  obtain rfl := Option.some.inj hlast
  rw [PaletteSet.candidatesOf_single, hslots] at hpadded
  exact not_rowsLe hlevels hweight hn (by omega) (PaletteSet.padded_size ..) hpadded

end

/-! ## How far palettes can be extended -/

/-- Growth to four candidates does not raise the error with mixes. -/
theorem grow_descends_some {γ : Type} [OrderSource γ] (rule : MixRule Rat) (l : Learner Rat γ) (ts : TileSet)
    {s : PaletteSet Rat} (hc : 0 < s.candidateCount) (rates : List Rat) {target : Nat}
    (htarget : target - s.firstCandidate ≤ Mix.candidates) :
    ∃ t l' told, (l.grow Moment.keep ⟨ts, some rule⟩ s target rates).run [] = ((t, l'), told) ∧
      Learner.GrowsDown ⟨ts, some rule⟩ s target t told := by
  refine Learner.grow_descends ⟨ts, some rule⟩ l s rates target fun t hzero hle hlt => ?_
  have hfirst : t.firstCandidate = s.firstCandidate := by rw [PaletteSet.firstCandidate, hzero, PaletteSet.firstCandidate]
  rw [PaletteSet.candidateCount] at hc
  have hct : 0 < t.candidateCount ∧ t.candidateCount < Mix.candidates := by
    rw [PaletteSet.candidateCount, hfirst]
    omega
  exact Fit.meanError_le_of_rowsLe (some rule) ts (Fit.errors_some_addSlot_le rule ts hct.1 hct.2 _ _)

/-- **Extensions under a mix rule.** A new slot can be added to palettes of `count` candidates, whatever they and the seeds
are, without raising any error if and only if there are fewer than four. They can be padded to `n` candidates if and only
if these are no more than there are or no more than four, or if there is but one to repeat; and then nothing changes.
Growth to four candidates does not raise the error. Whatever the number, an error with mixes after a new slot is at most
the plain error before it. -/
theorem mixErrors_kept_iff (hlevels : rule.levels = 2 ∨ rule.levels = 4) (hweight : 0 < rule.weight ∧ rule.weight ≤ 1)
    {count : Nat} (hcount : 0 < count) :
    ((∀ (ts : TileSet) (s : PaletteSet Rat) (filler : Rgb Rat) (seeds : List (Rgb Rat)), s.candidateCount = count →
        Fit.RowsLe (Fit.errors (some rule) ts (s.addSlot filler seeds)) (Fit.errors (some rule) ts s)) ↔
      count < Mix.candidates) ∧
    (∀ n, (∀ (ts : TileSet) (s : PaletteSet Rat), s.candidateCount = count →
        Fit.RowsLe (Fit.errors (some rule) ts (s.padded (s.firstCandidate + n))) (Fit.errors (some rule) ts s)) ↔
      n ≤ max count Mix.candidates ∨ count = 1) ∧
    (∀ n, n ≤ max count Mix.candidates ∨ count = 1 → ∀ (ts : TileSet) (s : PaletteSet Rat), s.candidateCount = count →
      Fit.errors (some rule) ts (s.padded (s.firstCandidate + n)) = Fit.errors (some rule) ts s ∧
      Fit.meanError (some rule) ts (s.padded (s.firstCandidate + n)) = Fit.meanError (some rule) ts s) ∧
    (∀ (γ : Type) [OrderSource γ] (l : Learner Rat γ) (ts : TileSet) (s : PaletteSet Rat) (rates : List Rat) (target : Nat),
      s.candidateCount = count → target - s.firstCandidate ≤ Mix.candidates →
      ∃ t l' told, (l.grow Moment.keep ⟨ts, some rule⟩ s target rates).run [] = ((t, l'), told) ∧
        Learner.GrowsDown ⟨ts, some rule⟩ s target t told) ∧
    ∀ (ts : TileSet) (s : PaletteSet Rat) (filler : Rgb Rat) (seeds : List (Rgb Rat)), s.candidateCount = count →
      Fit.RowsLe (Fit.errors (some rule) ts (s.addSlot filler seeds)) (Fit.errors none ts s) := by
  have hsame : ∀ n, n ≤ max count Mix.candidates ∨ count = 1 → ∀ (ts : TileSet) (s : PaletteSet Rat),
      s.candidateCount = count →
      Fit.errors (some rule) ts (s.padded (s.firstCandidate + n)) = Fit.errors (some rule) ts s := by
    rintro n hn ts s rfl
    exact Fit.errors_some_padded rule ts hcount hn
  refine ⟨⟨fun hall => ?_, ?_⟩, fun n => ⟨fun hall => ?_, ?_⟩, ?_, ?_, ?_⟩
  · by_contra hmany
    exact not_rowsLe_addSlot hlevels hweight.1 (Nat.le_of_not_lt hmany)
      (hall tiles (.single (colors count)) near [near] (candidateCount_single_colors hcount))
  · rintro hfew ts s filler seeds rfl
    exact Fit.errors_some_addSlot_le rule ts hcount hfew filler seeds
  · by_contra hmany
    rw [not_or, Nat.not_le] at hmany
    have hloss := hall tiles (.single (colors count)) (candidateCount_single_colors hcount)
    rw [show (PaletteSet.single (colors count)).firstCandidate + n = n from Nat.zero_add n] at hloss
    exact not_rowsLe_padded hlevels hweight.1 (by omega) hmany.1 hloss
  · intro hn ts s hs
    rw [hsame n hn ts s hs]
    exact Fit.rowsLe_refl _
  · intro n hn ts s hs
    refine ⟨hsame n hn ts s hs, ?_⟩
    rw [Fit.meanError, Fit.meanError, Fit.assign, Fit.assign, hsame n hn ts s hs]
  · rintro γ _ l ts s rates target rfl htarget
    exact grow_descends_some rule l ts hcount rates htarget
  · rintro ts s filler seeds rfl
    exact Fit.errors_some_addSlot_le_none rule ts hcount filler seeds

/-- Palettes of three candidates at four levels and full weight: one slot more is safe, and padding to five is not. -/
theorem mixErrors_kept_iff_three :
    (∀ (ts : TileSet) (s : PaletteSet Rat) (filler : Rgb Rat) (seeds : List (Rgb Rat)), s.candidateCount = 3 →
      Fit.RowsLe (Fit.errors (some ⟨4, 1⟩) ts (s.addSlot filler seeds)) (Fit.errors (some ⟨4, 1⟩) ts s)) ∧
    ¬ ∀ (ts : TileSet) (s : PaletteSet Rat), s.candidateCount = 3 →
      Fit.RowsLe (Fit.errors (some ⟨4, 1⟩) ts (s.padded (s.firstCandidate + 5))) (Fit.errors (some ⟨4, 1⟩) ts s) := by
  obtain ⟨hadd, hpad, -⟩ := @mixErrors_kept_iff ⟨4, 1⟩ (.inr rfl) ⟨by norm_num, le_rfl⟩ 3 (by decide)
  exact ⟨hadd.2 (by decide), fun hall => absurd ((hpad 5).1 hall) (by decide)⟩

/-- A tile of one pixel between two colours and five that a third of them would meet. -/
def growTiles : TileSet := .ofBlocks 1 1 6 1 [(⟨102, 0, 0⟩, false) :: List.replicate 5 (⟨91, 0, 0⟩, false)]

/-- Four candidates that mix to both colours of the tile. -/
def growSet : PaletteSet Rat := .single [⟨80, 0, 0⟩, ⟨80, 0, 0⟩, ⟨80, 0, 0⟩, ⟨124, 0, 0⟩]

/-- A learner that is asked for no samples. -/
def idle : Learner Rat Generator := .start default default

/-- A fifth candidate can raise the error, be it a given one, a copy of the last, or one that growth seeds. -/
theorem mixErrors_lost :
    Fit.meanError (some ⟨4, 1⟩) tiles (.single (colors 4)) = 1 / 4 ∧
    Fit.meanError (some ⟨4, 1⟩) tiles ((PaletteSet.single (colors 4)).addSlot near [near]) = 100 ∧
    Fit.meanError (some ⟨4, 1⟩) tiles ((PaletteSet.single (colors 4)).padded 5) = 100 ∧
    (growSet :: ((idle.grow Moment.keep ⟨growTiles, some ⟨4, 1⟩⟩ growSet 5 []).run []).2.filterMap Moment.grown?).map
      (Fit.meanError (some ⟨4, 1⟩) growTiles) = [0, 121 / 6] := by
  refine ⟨?_, ?_, ?_, ?_⟩ <;> cbv

end Crowd

end Tessera
