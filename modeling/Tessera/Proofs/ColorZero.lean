import Mathlib
import Tessera.Proofs.Run
import Tessera.Proofs.Settings
import Tessera.Proofs.Slots
/-!
# Colour zero over whole runs

Under a transparent policy the first slot of every palette is the transparent colour, and under the shared policy the first
slots of all palettes are one colour. This is true of starting palettes and kept by every operation on palettes, whatever
its arguments (`PaletteSet.ZeroHolds`, `KeptThroughout`), so it is true of every set that a run reaches.

Operations are described by what they do to the first slots (`PaletteSet.zeros`).
-/

namespace Tessera

/-! ## First slots -/

namespace PaletteSet

variable {β γ : Type} (s : PaletteSet β)

/-- The first slots of all palettes. -/
def zeros : List (Option (Rgb β)) := s.palettes.map fun v => v[0]?

variable {s} in
theorem slots_pos_of_mem_zeros {c : Rgb β} (h : some c ∈ s.zeros) : 0 < s.slots := by
  obtain ⟨v, -, hv⟩ := List.mem_map.1 h
  exact (Vector.getElem?_eq_some_iff.1 hv).1

theorem modifySlot_zero_of_ne {n slot : Nat} (v : Vector (Rgb β) n) (h : slot ≠ 0) (f : Rgb β → Rgb β) :
    (modifySlot v slot f)[0]? = v[0]? := by
  rw [modifySlot_getElem?]
  simp only [if_neg (Ne.symm h), Option.map_id']

theorem zeros_modifyAt (p : Nat) {slot : Nat} (h : slot ≠ 0) (f : Rgb β → Rgb β) :
    (s.modifyAt p slot f).zeros = s.zeros := by
  change (s.palettes.modify p fun v => modifySlot v slot f).map (fun v => v[0]?) = s.palettes.map fun v => v[0]?
  apply List.ext_getElem?
  intro q
  simp only [List.getElem?_map, List.getElem?_modify]
  cases s.palettes[q]? with
  | none => rfl
  | some v =>
    simp only [Option.map_eq_map, Option.map_some]
    split
    · rw [modifySlot_zero_of_ne v h f]
    · rfl

theorem zeros_fillSlot (h : 0 < s.slots) (c : Rgb β) : (s.fillSlot 0 c).zeros = s.zeros.map fun _ => some c := by
  simp only [zeros, fillSlot, List.map_map]
  refine List.map_congr_left fun v _ => ?_
  simp only [Function.comp, modifySlot, dif_pos h]
  exact Vector.getElem?_set_self h

theorem zeros_addSlot (h : 0 < s.slots) (filler : Rgb β) (seeds : List (Rgb β)) : (s.addSlot filler seeds).zeros = s.zeros := by
  simp only [zeros, addSlot, List.map_map]
  have hpush : ∀ x : Vector (Rgb β) s.slots × Nat, (x.1.push (seeds.getD x.2 filler))[0]? = x.1[0]? := fun x => by
    rw [Vector.getElem?_push, if_neg (by omega)]
  calc s.palettes.zipIdx.map _ = s.palettes.zipIdx.map ((fun v => v[0]?) ∘ Prod.fst) :=
        List.map_congr_left fun x _ => hpush x
    _ = _ := by rw [← List.map_map, List.zipIdx_map_fst]

theorem zeros_padded (n : Nat) : (s.padded n).zeros = s.zeros := by
  rw [padded]
  split
  · rename_i hpos
    simp only [zeros, List.map_map]
    exact List.map_congr_left fun v _ => Vector.getElem?_append_left hpos
  · rfl

theorem zeros_map (f : Rgb β → Rgb γ) : (s.map f).zeros = s.zeros.map (Option.map f) := by
  simp only [zeros, map, List.map_map]
  exact List.map_congr_left fun v _ => Vector.getElem?_map ..

end PaletteSet

theorem Depth.zeros_reduce {α : Type} [Scalar α] (bits : Nat) (s : PaletteSet α) :
    (Depth.reduce bits s).zeros = s.zeros.map (Option.map fun c =>
      if 0 < s.zero.reservedSlots then c else c.map (Level.snapTo (Level.step bits))) := by
  simp only [PaletteSet.zeros, Depth.reduce, List.map_map]
  exact List.map_congr_left fun v _ => Vector.getElem?_mapIdx ..

/-! ## Colour zero by the policy -/

namespace PaletteSet

variable {β γ : Type} {s : PaletteSet β} {transparent : Rgb β}

/-- The first slots are as the policy asks: all transparent, all of one colour, or anything. -/
structure ZeroHolds (transparent : Rgb β) (s : PaletteSet β) : Prop where
  fixed : s.zero.isTransparent → ∀ c ∈ s.zeros, c = some transparent
  shared : s.zero = .shared → ∃ common, ∀ c ∈ s.zeros, c = some common

/-- Palettes of pairs with one first colour. -/
theorem eq_of_mem_zeros_pairs (zero : ColorZero) (first : Rgb β) (seeds : List (Rgb β)) :
    ∀ c ∈ (⟨zero, 2, seeds.map fun c => #v[first, c]⟩ : PaletteSet β).zeros, c = some first := by
  intro c hc
  simp only [zeros, List.map_map, List.mem_map] at hc
  obtain ⟨x, -, rfl⟩ := hc
  rfl

theorem ofSeeds_zeroHolds (zero : ColorZero) (shared transparent : Rgb β) (seeds : List (Rgb β)) :
    (ofSeeds zero shared transparent seeds).ZeroHolds transparent := by
  cases zero with
  | unique =>
    constructor
    · intro h; cases h
    · intro h; cases h
  | shared =>
    constructor
    · intro h; cases h
    · intro _; exact ⟨shared, eq_of_mem_zeros_pairs _ _ _⟩
  | transparentAlpha =>
    constructor
    · intro _; exact eq_of_mem_zeros_pairs _ _ _
    · intro h; cases h
  | transparentKey =>
    constructor
    · intro _; exact eq_of_mem_zeros_pairs _ _ _
    · intro h; cases h

theorem lt_slots_of_color? {p slot : Nat} {c : Rgb β} (h : s.color? p slot = some c) : slot < s.slots := by
  rw [color?] at h
  split at h
  · exact (Vector.getElem?_eq_some_iff.1 h).1
  · cases h

/-- Writing a shared slot to all palettes leaves them one colour. -/
theorem fillSlot_zeroHolds (hz : s.zero = .shared) (hpos : 0 < s.slots) (c : Rgb β) :
    (s.fillSlot 0 c).ZeroHolds transparent := by
  constructor
  · intro ht
    change s.zero.isTransparent = true at ht
    rw [hz] at ht
    cases ht
  · intro _
    refine ⟨c, fun d hd => ?_⟩
    rw [zeros_fillSlot s hpos] at hd
    obtain ⟨_, -, rfl⟩ := List.mem_map.1 hd
    rfl

/-- Writing by the policy keeps colour zero: a fixed slot is not written, a shared one is written in all palettes. -/
theorem ZeroHolds.changeColor (h : s.ZeroHolds transparent) (p slot : Nat) (f : Rgb β → Rgb β) :
    (s.changeColor p slot f).ZeroHolds transparent := by
  rw [PaletteSet.changeColor]
  split
  · exact h
  rename_i hfixed
  split
  · rename_i hshared
    simp only [isShared, Bool.and_eq_true, beq_iff_eq] at hshared
    split
    · rename_i c hc
      exact fillSlot_zeroHolds hshared.1 (lt_slots_of_color? hc) (f c)
    · exact h
  · rename_i hshared
    -- under a policy that says something the slot is not the first one
    have hslot : s.zero.isTransparent ∨ s.zero = .shared → slot ≠ 0 := by
      rintro (hz | hz) rfl
      · simp [isFixed, hz] at hfixed
      · simp [isShared, hz] at hshared
    constructor
    · intro hz
      rw [zeros_modifyAt s p (hslot (.inl hz))]
      exact h.fixed hz
    · intro hz
      rw [zeros_modifyAt s p (hslot (.inr hz))]
      exact h.shared hz

theorem ZeroHolds.addSlot (h : s.ZeroHolds transparent) (filler : Rgb β) (seeds : List (Rgb β)) :
    (s.addSlot filler seeds).ZeroHolds transparent := by
  have hkeep : ∀ c, (∀ d ∈ s.zeros, d = some c) → ∀ d ∈ (s.addSlot filler seeds).zeros, d = some c := by
    intro c hall d hd
    have hlength : (s.addSlot filler seeds).zeros.length = s.zeros.length := by simp [zeros, PaletteSet.addSlot]
    obtain ⟨e, he⟩ := List.exists_mem_of_length_pos (hlength ▸ List.length_pos_of_mem hd)
    rw [zeros_addSlot s (slots_pos_of_mem_zeros (hall e he ▸ he))] at hd
    exact hall d hd
  exact ⟨fun hz => hkeep _ (h.fixed hz), fun hz => (h.shared hz).imp hkeep⟩

theorem ZeroHolds.padded (h : s.ZeroHolds transparent) (n : Nat) : (s.padded n).ZeroHolds transparent := by
  refine ⟨fun hz => ?_, fun hz => ?_⟩
  all_goals
    rw [padded_zero] at hz
    rw [zeros_padded]
  · exact h.fixed hz
  · exact h.shared hz

theorem ZeroHolds.map (h : s.ZeroHolds transparent) (f : Rgb β → Rgb γ) : (s.map f).ZeroHolds (f transparent) := by
  have hkeep : ∀ c, (∀ d ∈ s.zeros, d = some c) → ∀ d ∈ (s.map f).zeros, d = some (f c) := by
    intro c hall d hd
    rw [zeros_map] at hd
    obtain ⟨e, he, rfl⟩ := List.mem_map.1 hd
    rw [hall e he, Option.map_some]
  exact ⟨fun hz => hkeep _ (h.fixed hz), fun hz => (h.shared hz).elim fun c hc => ⟨f c, hkeep c hc⟩⟩

end PaletteSet

section

variable {α γ : Type} [Scalar α] [OrderSource γ] {s : PaletteSet α} {transparent : Rgb α}

/-- Snapping leaves a fixed slot alone and snaps shared slots alike. -/
theorem Depth.reduce_zeroHolds (h : s.ZeroHolds transparent) (bits : Nat) :
    (Depth.reduce bits s).ZeroHolds transparent := by
  refine ⟨fun hz d hd => ?_, fun hz => ?_⟩
  · rw [zeros_reduce] at hd
    obtain ⟨e, he, rfl⟩ := List.mem_map.1 hd
    rw [reduce_zero] at hz
    rw [h.fixed hz e he, Option.map_some, ColorZero.reservedSlots, if_pos hz, if_pos Nat.zero_lt_one]
  · obtain ⟨c, hc⟩ := h.shared hz
    rw [zeros_reduce]
    refine ⟨if 0 < s.zero.reservedSlots then c else c.map (Level.snapTo (Level.step bits)), fun d hd => ?_⟩
    obtain ⟨e, he, rfl⟩ := List.mem_map.1 hd
    rw [hc e he, Option.map_some]

theorem Depth.recenter_zeroHolds (h : s.ZeroHolds transparent) (ts : TileSet) :
    (Depth.recenter ts s).ZeroHolds transparent :=
  Depth.recenter_induct ts h fun _ _ _ _ _ ht => ht.changeColor _ _ _

theorem Depth.correctOnce_zeroHolds (h : s.ZeroHolds transparent) (bits : Nat) (ts : TileSet) :
    (Depth.correctOnce bits ts s).ZeroHolds transparent := by
  rw [Depth.correctOnce]
  split
  · exact Depth.reduce_zeroHolds h bits
  · exact Depth.reduce_zeroHolds (Depth.recenter_zeroHolds h ts) bits

theorem Learn.run_zeroHolds (h : s.ZeroHolds transparent) (ts : TileSet) (steps : List (Nat × α)) :
    (Learn.run ts s steps).ZeroHolds transparent :=
  Learn.run_induct ts steps h fun _ _ _ _ _ _ ht => ht.changeColor _ _ _

theorem Learner.growOne_zeroHolds (h : s.ZeroHolds transparent) (pb : Problem α) (l : Learner α γ) (rates : List α) :
    (l.growOne pb s rates).set.ZeroHolds transparent := by
  have hseeded : (Learner.seeded pb.tiles s).ZeroHolds transparent := h.addSlot _ _
  simp only [Learner.growOne, Learner.judge]
  split
  · exact hseeded
  · exact Learn.run_zeroHolds hseeded _ _

/-- Every operation of a run keeps a property of palette sets, whatever its other arguments. -/
structure KeptThroughout (I : PaletteSet α → Prop) : Prop where
  move : ∀ ts s x rate, I s → I (Learn.move ts s x rate)
  moveCached : ∀ ts (s : Learn.Cached α) x rate, I s.set → I (Learn.moveCached ts s x rate).set
  run : ∀ ts s steps, I s → I (Learn.run ts s steps)
  replace : ∀ rule ts (x : Reseed.Changed α), I x.set → I (Reseed.replace rule ts x).set
  growOne : ∀ (γ : Type) [OrderSource γ] pb (l : Learner α γ) s rates, I s → I (l.growOne pb s rates).set
  reduce : ∀ bits s, I s → I (Depth.reduce bits s)
  correctOnce : ∀ bits ts s, I s → I (Depth.correctOnce bits ts s)
  correct : ∀ bits passes ts s, I s → I (Id.run (Depth.correct (fun _ => pure ()) bits passes ts s))
  padded : ∀ n s, I s → I (s.padded n)

theorem zeroHolds_keptThroughout (transparent : Rgb α) : KeptThroughout (PaletteSet.ZeroHolds transparent) where
  move _ _ _ _ h := h.changeColor _ _ _
  moveCached _ _ _ _ h := h.changeColor _ _ _
  run ts _ steps h := Learn.run_zeroHolds h ts steps
  replace rule ts _ h := Reseed.replace_induct (fun _ _ _ _ ht => ht.changeColor _ _ _) h rule ts
  growOne _ _ pb l _ rates h := Learner.growOne_zeroHolds h pb l rates
  reduce bits _ h := Depth.reduce_zeroHolds h bits
  correctOnce bits ts _ h := Depth.correctOnce_zeroHolds h bits ts
  correct bits passes ts s h := by
    have hfrom : ∀ n i (t : PaletteSet α), t.ZeroHolds transparent →
        (Id.run (Depth.correctFrom (fun _ => pure ()) bits ts n i t)).ZeroHolds transparent := by
      intro n
      induction n with
      | zero => exact fun _ _ ht => ht
      | succ n ih => exact fun i t ht => ih (i + 1) _ (Depth.correctOnce_zeroHolds ht bits ts)
    exact hfrom passes 0 _ (Depth.reduce_zeroHolds h bits)
  padded n _ h := h.padded n

/-! ## Runs -/

/-- **Colour zero over a run.** It holds in every palette set that a run reaches. -/
theorem Plan.Reaches.zeroHolds {p : Plan α} (h : p.Reaches s) :
    s.zero = p.settings.colorZero ∧ s.ZeroHolds (Rgb.ofInts p.settings.transparentColor) := by
  induction h with
  | start => exact ⟨PaletteSet.ofSeeds_zero _ _ _ _, PaletteSet.ofSeeds_zeroHolds _ _ _ _⟩
  | moved q _ _ _ ih => exact ⟨(PaletteSet.changeColor_zero _ _ _ _).trans ih.1, ih.2.changeColor _ _ _⟩
  | seeded _ _ ih => exact ⟨ih.1, ih.2.addSlot _ _⟩
  | reseeded q slot c _ ih => exact ⟨(PaletteSet.changeColor_zero _ _ _ _).trans ih.1, ih.2.changeColor _ _ _⟩
  | recentred _ ih =>
    exact ⟨(Depth.recenter_sameShape ..).zero_eq.trans ih.1, Depth.recenter_zeroHolds ih.2 _⟩
  | reduced _ ih => exact ⟨ih.1, Depth.reduce_zeroHolds ih.2 _⟩
  | padded _ ih => exact ⟨(PaletteSet.padded_zero _ _).trans ih.1, ih.2.padded _⟩

end

/-- A byte is read back from the floating-point number that stands for it. -/
theorem toByte_ofInt_of_lt (n : Fin 256) : Scalar.toByte (Scalar.ofInt (n.val : Int) : Float) = n.val.toUInt8 := by
  decide +kernel +revert

/-- The bytes of a colour of bytes. -/
theorem Rgb.toBytes_ofInts {c : Rgb Int} (h : c.IsBytes) :
    (Rgb.ofInts c : Rgb Float).toBytes = c.map fun n => n.toNat.toUInt8 := by
  have hbyte : ∀ n ∈ c.toList, Scalar.toByte (Scalar.ofInt n : Float) = n.toNat.toUInt8 := by
    intro n hn
    have := toByte_ofInt_of_lt ⟨n.toNat, by have := h n hn; omega⟩
    rwa [Int.toNat_of_nonneg (h n hn).1] at this
  simp only [toBytes, ofInts, map]
  rw [hbyte _ (by simp [toList]), hbyte _ (by simp [toList]), hbyte _ (by simp [toList])]

/-- Colour zero holds in all that a run has to do with: in every set that it can come to, among them those of its journal
and its best ones, in the bytes of every report, and in what it composes. -/
structure Outcome.KeepsZero {α : Type} [Scalar α] (p : Plan α) (o : Outcome α) : Prop where
  reached : o.Reached p
  working : ∀ s, p.Reaches s → s.zero = p.settings.colorZero ∧ s.ZeroHolds (Rgb.ofInts p.settings.transparentColor)
  reported : ∀ e ∈ o.journal.events,
    e.set.toBytes.ZeroHolds (p.settings.transparentColor.map fun n => n.toNat.toUInt8)
  composed : (⟨p.settings.colorZero, o.composition.slots, o.composition.palettes⟩ : PaletteSet UInt8).ZeroHolds
    (p.settings.transparentColor.map fun n => n.toNat.toUInt8)

theorem Outcome.Reached.keepsZero {p : Plan Float} {o : Outcome Float} (h : o.Reached p)
    (hkey : p.settings.transparentColor.IsBytes) : o.KeepsZero p := by
  have hbytes : ∀ s, p.Reaches s →
      s.toBytes.ZeroHolds (p.settings.transparentColor.map fun n => n.toNat.toUInt8) := fun s hs => by
    rw [← Rgb.toBytes_ofInts hkey]
    exact hs.zeroHolds.2.map _
  refine ⟨h, fun s hs => hs.zeroHolds, fun e he => hbytes _ (h.journal.events e he), ?_⟩
  obtain ⟨s, cancelled, hs, hcomposition⟩ := h.composition
  rw [hcomposition, ← hs.padded.zeroHolds.1]
  exact hbytes _ hs.padded

/-- **Colour zero.** Starting palettes have it and every operation keeps it, in any arithmetic and whatever the arguments.
So it holds throughout a run of checked settings, whatever the orders of its samples, whatever k-means comes to and whenever
the run is stopped. -/
theorem quantize_keepsZero {γ : Type} [OrderSource γ] {d : Draft} {s : Settings Float} (means : Cluster.Means Float)
    (b : Buffer) (im : Image) {source : Result γ} (workers : Value) {n : Number} {g : γ} (hs : d.settings = .ok s)
    (hm : d.missing = [])
    (hp : s.dither = .off ∨ s.ditherPattern.isRegistered) (hkey : s.transparentColor.IsBytes) (hb : b.toImage = .ok im)
    (hpos : 0 < im.height ∧ 0 < im.width) (hdh : s.tileHeight ∣ im.height) (hdw : s.tileWidth ∣ im.width)
    (hw : Number.ofValue workers = .ok n) (hg : source = .ok g) (a : Audience Float) :
    (∀ (α : Type) [Scalar α] (transparent : Rgb α),
      (∀ zero shared seeds, (PaletteSet.ofSeeds zero shared transparent seeds).ZeroHolds transparent) ∧
      KeptThroughout (PaletteSet.ZeroHolds transparent) ∧
      ∀ s : PaletteSet α, s.ZeroHolds transparent → s.toBytes.ZeroHolds transparent.toBytes) ∧
    ∃ p o, d.quantizeWith means b source workers a = .ok (p, o) ∧ p.settings = s ∧ o.KeepsZero p := by
  refine ⟨fun α _ transparent => ⟨fun zero shared seeds => PaletteSet.ofSeeds_zeroHolds _ _ _ _,
    zeroHolds_keptThroughout transparent, fun s h => h.map _⟩, ?_⟩
  obtain ⟨t, r, hplan, -⟩ := Draft.planWith_eq_ok means hs hm hp hkey hb hpos hdh hdw
  exact ⟨_, _, Draft.quantizeWith_eq_ok hplan hm hw hg a, rfl, ((Plan.make s im t r means).run_reached a g).keepsZero hkey⟩

/-- A run on a small image, stopped at its second report. -/
theorem quantize_keepsZero_small :
    ∃ p o, Draft.small.quantize Buffer.small (.int 11) (.int 1) ⟨fun i _ => i == 1, false⟩ = .ok (p, o) ∧
      p.settings.transparentColor = ⟨16, 32, 48⟩ ∧ o.KeepsZero p := by
  obtain ⟨s, hs, htw, hth, hdither, -, hkey⟩ := Draft.small_settings
  have hg : Generator.ofValue (.int 11) = .ok (Generator.ofSeed 11) := rfl
  obtain ⟨-, p, o, hrun, hsettings, hkeeps⟩ := quantize_keepsZero Cluster.lloyd Buffer.small
    ⟨2, 2, Buffer.small.pixels 2 2 3⟩ (.int 1) hs (by decide +kernel) (.inl hdither)
    (by rw [hkey]; decide) rfl (by decide) (by rw [hth]) (by rw [htw]; exact one_dvd _) rfl hg ⟨fun i _ => i == 1, false⟩
  exact ⟨p, o, hrun, by rw [hsettings, hkey], hkeeps⟩

end Tessera
