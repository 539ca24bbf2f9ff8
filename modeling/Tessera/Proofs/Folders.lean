import Mathlib
import Tessera.Command.Run
import Tessera.Proofs.Cancelling
import Tessera.Proofs.Disks
import Tessera.Proofs.Saving
/-!
# Runs on folders

A run on a folder gives every picture its turn. A turn leaves the disk as it is, or it writes the composition of its picture
under the output path (`Turn`). Where no link has the name of an output or leads to one (`Disk.Unlinked`), what a turn finds is
what stood there when the run began, since no turn writes to a picture to work on (`turns_of_forM`). So a run can be repeated,
and every output path holds the composition of the last picture that was written there. With such a link a picture can be
overwritten (`linked_overwritten`).
-/

namespace Tessera

/-! ## What is saved for a composition -/

theorem Format.not_isEmpty_of_store {f : Format} {n : FileName} {picture stored : Picture} {clear : Value}
    (h : f.store n picture clear = .ok stored) : ¬ picture.isEmpty := by
  intro hempty
  rw [store, if_pos hempty] at h
  split at h
  · cases h
  split at h
  · cases h
  · cases h

/-- What a disk has after a picture was written. -/
theorem Disk.writePicture_inv {d d' : Disk} {p : Path} {f : Format} {picture stored : Picture} {clear : Value}
    (hf : Format.forWriting p.name = .ok f) (h : d.writePicture p picture clear .null = .ok (d', stored)) :
    ∃ q, d.place p = .ok q ∧ f.store p.name picture clear = .ok stored ∧ d' = d.put q (.file (f.scan? stored 1)) := by
  obtain ⟨f', hf', hplace⟩ := bind_eq_ok.1 h
  obtain rfl : f = f' := by simpa [hf] using hf'
  obtain ⟨q, hq, hstore⟩ := bind_eq_ok.1 hplace
  obtain ⟨stored', hs, hturn⟩ := bind_eq_ok.1 hstore
  obtain ⟨turned, ht, hput⟩ := bind_eq_ok.1 hturn
  have hone : turned = 1 := by
    rw [Format.keptOrientation] at ht
    split at ht <;> cases ht <;> rfl
  cases hput
  exact ⟨q, hq, hs, by rw [hone]⟩

namespace Composition

variable {α : Type} {c : Composition α} {d d' : Disk}

/-- The picture in the file that a run writes for a composition. -/
def filed (c : Composition α) : Result Picture :=
  if c.fitsIndexed then do pure (.indexed (← c.byteIndices) c.fullTable) else do pure (.full .colorAlpha (← c.render))

/-- What a reader finds in the file that a run writes for a composition. -/
def reread (c : Composition α) (picture : Picture) : Scan :=
  ⟨(if c.fitsIndexed then Format.bmp else Format.png).reread picture, 1⟩

theorem hasSuffix_outputName (folder : Path) (stem : FileName) (indexed : Bool) :
    (folder.child (outputName stem indexed)).hasSuffix alphaSuffix = !indexed := by
  rw [Path.hasSuffix, Path.suffix, Path.name_child, FileName.suffix, split_outputName]
  dsimp only
  cases indexed <;> decide +kernel

/-- **What is saved for a composition** under a path of the right kind is its picture. -/
theorem save_inv {p path : Path} {picture : Picture} (hsuffix : p.hasSuffix alphaSuffix = !c.fitsIndexed)
    (hformat : Format.forWriting p.name = .ok (if c.fitsIndexed then .bmp else .png))
    (h : c.save d p = .ok (d', path, picture)) :
    path = p ∧ c.filed = .ok picture ∧ ∃ q, d.place p = .ok q ∧ d' = d.put q (.file (some (c.reread picture))) := by
  rw [save] at h
  unfold filed reread
  by_cases hfits : c.fitsIndexed
  · rw [hfits, Bool.not_true] at hsuffix
    simp only [if_pos hfits] at h hformat ⊢
    obtain ⟨bytes, hbytes, htabled⟩ := bind_eq_ok.1 h
    obtain ⟨table, htable, hgiven⟩ := bind_eq_ok.1 htabled
    rw [tableFor, hsuffix] at htable
    cases htable
    rw [pure_bind] at hgiven
    obtain ⟨⟨disk, stored⟩, hw, hlast⟩ := bind_eq_ok.1 hgiven
    cases hlast
    obtain ⟨q, hq, hstore, rfl⟩ := Disk.writePicture_inv hformat hw
    have hsame := Format.store_bmp_indexed p.name alpha_fullTable (Format.not_isEmpty_of_store hstore)
    cases hsame.symm.trans hstore
    rw [hbytes]
    exact ⟨rfl, rfl, q, hq, rfl⟩
  · rw [Bool.eq_false_of_not_eq_true hfits, Bool.not_false] at hsuffix
    simp only [if_neg hfits] at h hformat ⊢
    obtain ⟨rows, hrows, hgiven⟩ := bind_eq_ok.1 h
    rw [alphaPath, if_pos hsuffix, pure_bind] at hgiven
    obtain ⟨⟨disk, stored⟩, hw, hlast⟩ := bind_eq_ok.1 hgiven
    cases hlast
    obtain ⟨q, hq, hstore, rfl⟩ := Disk.writePicture_inv hformat hw
    have hsame := Format.store_png_full p.name (Format.not_isEmpty_of_store hstore)
    cases hsame.symm.trans hstore
    rw [hrows]
    exact ⟨rfl, rfl, q, hq, rfl⟩

end Composition

/-- A disk holds, under a path, what a run writes for a composition. -/
def Disk.Holds {α : Type} (d : Disk) (p : Path) (c : Composition α) : Prop :=
  ∃ picture, c.filed = .ok picture ∧ d.find p = .ok (some (.file (some (c.reread picture))))

/-! ## The size of the table -/

/-- Whatever palettes a run reaches, the table of its composition has the size that the settings ask for. -/
theorem Plan.tableSize_compose {α : Type} [Scalar α] {p : Plan α} {s : PaletteSet α} (h : p.Shape s) (cancelled : Bool) :
    (p.compose s cancelled).tableSize = p.settings.numPalettes * p.settings.colorsPerPalette := by
  have hsize : (s.padded p.settings.colorsPerPalette).size = p.settings.numPalettes := by
    rw [PaletteSet.padded_size, h.size_eq]
  have hslots : (s.padded p.settings.colorsPerPalette).slots = p.settings.colorsPerPalette := by
    rw [PaletteSet.padded_slots _ _ h.slots_pos]
    exact Nat.max_eq_left h.slots_le
  exact congrArg₂ (· * ·) ((List.length_map _).trans hsize) hslots

theorem Draft.reached_of_quantize {d : Draft} {b : Buffer} {seed workers : Value} {a : Audience Float} {p : Plan Float}
    {outcome : Outcome Float} (h : d.quantize b seed workers a = .ok (p, outcome)) :
    d.plan b = .ok p ∧ outcome.Reached p := by
  obtain ⟨p', hplan, hrun⟩ := bind_eq_ok.1 h
  split at hrun
  · obtain ⟨_, -, hidle⟩ := bind_eq_ok.1 hrun
    cases hidle
    exact ⟨hplan, p.runIdle_reached a⟩
  · obtain ⟨g, -, hneed⟩ := bind_eq_ok.1 hrun
    obtain ⟨_, -, hcompose⟩ := bind_eq_ok.1 hneed
    obtain ⟨_, -, hlast⟩ := bind_eq_ok.1 hcompose
    dsimp only at hlast
    split at hlast
    · cases hlast
      exact ⟨hplan, p.run_reached a g⟩
    · obtain ⟨_, -, hlast⟩ := bind_eq_ok.1 hlast
      cases hlast
      exact ⟨hplan, p.run_reached a g⟩

namespace Command

open Shell

variable {env : Surroundings} {o : Options} {src : Path} {d d' : Disk} {k k' k'' : Desk} {β γ : Type}

/-- The composition of a picture on a disk, when it can be quantized. -/
def Options.outcome? (o : Options) (env : Surroundings) (d : Disk) (src : Path) : Option (Composition Float) :=
  ((d.find src).toOption.bind fun node? => node?.bind Node.scan?).bind fun scan =>
    (o.draft.quantize scan.load (o.seedValue (env.entropy.seedFor src)) o.workers ⟨fun _ _ => false, false⟩).toOption.map fun r =>
      r.2.composition

theorem Options.outcome?_congr (h : d'.find src = d.find src) : o.outcome? env d' src = o.outcome? env d src := by
  rw [outcome?, outcome?, h]

/-- All compositions of a run have tables of one size. -/
theorem Options.settings_of_outcome? {c : Composition Float} (h : o.outcome? env d src = some c) :
    ∃ s, o.draft.settings = .ok s ∧ c.tableSize = s.numPalettes * s.colorsPerPalette := by
  obtain ⟨scan, -, hscan⟩ := Option.bind_eq_some_iff.1 h
  obtain ⟨⟨p, outcome⟩, hr, rfl⟩ := Option.map_eq_some_iff.1 hscan
  rcases hq : o.draft.quantize scan.load (o.seedValue (env.entropy.seedFor src)) o.workers ⟨fun _ _ => false, false⟩ with e | r
  · rw [hq] at hr
    cases hr
  rw [hq] at hr
  cases hr
  obtain ⟨hplan, hreached⟩ := Draft.reached_of_quantize hq
  have hs := Draft.settings_of_plan hplan
  obtain ⟨set, cancelled, hset, hcomposition⟩ := hreached.composition
  refine ⟨p.settings, hs, ?_⟩
  rw [hcomposition]
  exact Plan.tableSize_compose (hset.shape (Draft.means_of_plan hplan ▸ Cluster.lloyd_lawful) (Draft.inRange hs)) cancelled

/-! ## Steps of a command -/

namespace Shell

/-- What is bound gives a result exactly when both parts do. -/
theorem bind_eq_ok {x : Shell β} {f : β → Shell γ} {c : γ} :
    (x >>= f).run k = .ok (c, k') ↔ ∃ b k1, x.run k = .ok (b, k1) ∧ (f b).run k1 = .ok (c, k') := by
  rw [StateT.run_bind, Tessera.bind_eq_ok]
  exact Prod.exists

theorem get_bind (f : Desk → Shell γ) : (get >>= f).run k = (f k).run k := rfl

theorem lift_bind {x : Result β} {b : β} (h : x = .ok b) (f : β → Shell γ) :
    (liftM x >>= f : Shell γ).run k = (f b).run k := by
  subst h
  rfl

theorem lift_bind_inv {x : Result β} {f : β → Shell γ} {r : γ × Desk} (h : (liftM x >>= f : Shell γ).run k = .ok r) :
    ∃ b, x = .ok b ∧ (f b).run k = .ok r := by
  cases x with
  | error e => cases h
  | ok b => exact ⟨b, rfl, h⟩

end Shell

/-- Two desks with the same disk, on which the same was written. -/
structure Desk.Agrees (k k' : Desk) : Prop where
  disk_eq : k'.disk = k.disk
  written_eq : k'.written = k.written

theorem Desk.Agrees.refl (k : Desk) : k.Agrees k := ⟨rfl, rfl⟩

theorem Desk.Agrees.trans (h : k.Agrees k') (h' : k'.Agrees k'') : k.Agrees k'' :=
  ⟨h'.disk_eq.trans h.disk_eq, h'.written_eq.trans h.written_eq⟩

theorem agrees_say {s : String} {u : Unit} (h : (say s).run k = .ok (u, k')) : k.Agrees k' := by
  obtain ⟨shown, -, hsaid⟩ := lift_bind_inv h
  cases hsaid
  exact ⟨rfl, rfl⟩

theorem agrees_complain {s : String} {u : Unit} (h : (complain s).run k = .ok (u, k')) : k.Agrees k' := by
  obtain ⟨shown, -, hsaid⟩ := lift_bind_inv h
  cases hsaid
  exact ⟨rfl, rfl⟩

/-- Something may be told before the rest. -/
theorem ite_say_inv {b : Prop} [Decidable b] {s : String} {f : Unit → Shell γ} {r : γ × Desk}
    (h : (if b then say s >>= f else f ()).run k = .ok r) : ∃ k1, k.Agrees k1 ∧ (f ()).run k1 = .ok r := by
  split at h
  · obtain ⟨_, k1, hsay, hrest⟩ := Shell.bind_eq_ok.1 h
    exact ⟨k1, agrees_say hsay, hrest⟩
  · exact ⟨k, .refl k, h⟩

/-! ## The turn of a picture -/

/-- What the turn of a picture does, by the composition of the picture: without one nothing is written, and otherwise the
composition is written under the output path. -/
inductive Turn (o : Options) (outcome? : Path → Option (Composition Float)) (src : Path) (k k' : Desk) : Prop
  | skipped (outcome_eq : outcome? src = none) (agrees : k.Agrees k')
  | saved {c : Composition Float} {folder? : Option Path} {picture : Picture} (outcome_eq : outcome? src = some c)
    (folder_eq : o.folder? = .ok folder?) (filed_eq : c.filed = .ok picture)
    (writes : k.disk.Writes k'.disk (outputPath src folder? c.fitsIndexed) (some (c.reread picture)))
    (written_eq : k'.written = k.written ++ [(outputPath src folder? c.fitsIndexed, picture)])

theorem save_inv {c : Composition Float} {folder path : Path} {stem : FileName}
    (h : (save c (folder.child (outputName stem c.fitsIndexed))).run k = .ok (path, k')) :
    ∃ picture, c.filed = .ok picture ∧
      k.disk.Writes k'.disk (folder.child (outputName stem c.fitsIndexed)) (some (c.reread picture)) ∧
      k'.written = k.written ++ [(folder.child (outputName stem c.fitsIndexed), picture)] := by
  rw [save, Shell.get_bind] at h
  obtain ⟨d, hd, hmade⟩ := lift_bind_inv h
  obtain ⟨⟨disk, path', picture⟩, hsave, hset⟩ := lift_bind_inv hmade
  cases hset
  obtain ⟨rfl, hfiled, q, hq, rfl⟩ := Composition.save_inv (Composition.hasSuffix_outputName folder stem c.fitsIndexed)
    (by rw [Path.name_child, forWriting_outputName]) hsave
  exact ⟨picture, hfiled, ⟨d, q, hd, hq, rfl⟩, rfl⟩

theorem turn_of_processPicture {live : Bool} {r : Option String}
    (h : (processPicture env o live src).run k = .ok (r, k')) : Turn o (o.outcome? env k.disk) src k k' := by
  obtain ⟨_, k1, hbanner, hread⟩ := Shell.bind_eq_ok.1 h
  have hk1 := agrees_say hbanner
  rw [Shell.get_bind, hk1.disk_eq] at hread
  obtain ⟨node?, hnode, hload⟩ := lift_bind_inv hread
  rcases hscan : node?.bind Node.scan? with _ | scan
  · simp only [hscan] at hload
    cases hload
  simp only [hscan] at hload
  -- From here on only telling lies between the picture and its composition.
  obtain ⟨k2, hk2, hjudge⟩ := ite_say_inv hload
  have houtcome : o.outcome? env k.disk src =
      (o.draft.quantize scan.load (o.seedValue (env.entropy.seedFor src)) o.workers
        ⟨fun _ _ => false, false⟩).toOption.map fun r => r.2.composition := by
    rw [Options.outcome?, hnode]
    simp only [Except.toOption, Option.bind_some, hscan]
  rcases hq : o.draft.quantize scan.load (o.seedValue (env.entropy.seedFor src)) o.workers
    ⟨fun _ _ => false, false⟩ with e | ⟨p, outcome⟩
  · simp only [hq] at hjudge
    rcases htold : e.told? with _ | s <;> rw [htold] at hjudge <;> cases hjudge
    exact .skipped (by rw [houtcome, hq]; rfl) (hk1.trans hk2)
  · simp only [hq] at hjudge
    obtain ⟨_, k3, hrun, hwhere⟩ := Shell.bind_eq_ok.1 hjudge
    obtain ⟨folder?, hfolder, hsaved⟩ := lift_bind_inv hwhere
    obtain ⟨path, k4, hsave, htell⟩ := Shell.bind_eq_ok.1 hsaved
    obtain ⟨_, k5, hlines, hlast⟩ := Shell.bind_eq_ok.1 htell
    cases hlast
    obtain ⟨picture, hfiled, hwrites, hwritten⟩ := save_inv hsave
    have hbefore := (hk1.trans hk2).trans (agrees_say hrun)
    have hafter := agrees_say hlines
    rw [hbefore.disk_eq, ← hafter.disk_eq] at hwrites
    rw [hbefore.written_eq, ← hafter.written_eq] at hwritten
    exact .saved (by rw [houtcome, hq]; rfl) hfolder hfiled hwrites hwritten

/-- A complaint changes nothing of what a turn has written. -/
theorem turn_of_processInFolder {live : Bool} (h : (processInFolder env o live src).run k = .ok ((), k')) :
    Turn o (o.outcome? env k.disk) src k k' := by
  obtain ⟨complaint?, k1, hpicture, htell⟩ := Shell.bind_eq_ok.1 h
  have hturn := turn_of_processPicture hpicture
  have hk1 : k1.Agrees k' := by
    cases complaint? with
    | none =>
      cases htell
      exact .refl _
    | some s => exact agrees_complain htell
  cases hturn with
  | skipped houtcome hagrees => exact .skipped houtcome (hagrees.trans hk1)
  | saved houtcome hfolder hfiled hwrites hwritten =>
    rw [← hk1.disk_eq] at hwrites
    rw [← hk1.written_eq] at hwritten
    exact .saved houtcome hfolder hfiled hwrites hwritten

/-! ## Turn after turn -/

/-- The turns of pictures, one after another. -/
inductive Turns (o : Options) (outcome? : Path → Option (Composition Float)) : List Path → Desk → Desk → Prop
  | nil (k : Desk) : Turns o outcome? [] k k
  | cons {src : Path} {files : List Path} {k k1 k' : Desk} (turn : Turn o outcome? src k k1)
    (turns : Turns o outcome? files k1 k') : Turns o outcome? (src :: files) k k'

variable {outcome? : Path → Option (Composition Float)} {files : List Path}

/-- A turn writes nothing but an output. -/
theorem Turn.grows (h : Turn o outcome? src k k') (hd : k.disk.Unlinked) :
    Disk.Grows k.disk k'.disk FileName.IsOutput := by
  cases h with
  | skipped _ hagrees =>
    rw [hagrees.disk_eq]
    exact .refl _ _
  | saved _ _ _ hwrites _ => exact hwrites.grows hd (isOutput_outputName _ _)

theorem Turns.grows (h : Turns o outcome? files k k') (hd : k.disk.Unlinked) :
    Disk.Grows k.disk k'.disk FileName.IsOutput := by
  induction h with
  | nil k => exact .refl _ _
  | cons turn _ ih =>
    have hturn := turn.grows hd
    exact hturn.trans (ih (hturn.unlinked hd))

/-- **Every turn finds what stood there at first.** The pictures of a folder have their turns with the compositions that
they had when the run began. -/
theorem turns_of_forM {live : Bool} {folder : Path} (hfolder : d.find folder = .ok (some .folder))
    (hfiles : ∀ p ∈ files, p ∈ d.collect folder) (hd : d.Unlinked) (hgrown : Disk.Grows d k.disk FileName.IsOutput)
    (h : (files.forM (processInFolder env o live)).run k = .ok ((), k')) : Turns o (o.outcome? env d) files k k' := by
  induction files generalizing k with
  | nil =>
    cases h
    exact .nil _
  | cons src files ih =>
    obtain ⟨_, k1, hsrc, hrest⟩ := Shell.bind_eq_ok.1 h
    have hturn := turn_of_processInFolder hsrc
    have hfind := hgrown.find_collected hd hfolder (hfiles src List.mem_cons_self)
    -- Nothing written so far is a picture to work on, so this one is found as it was at first.
    have hsame : Turn o (o.outcome? env d) src k k1 := by
      have houtcome : o.outcome? env k.disk src = o.outcome? env d src := Options.outcome?_congr hfind
      cases hturn with
      | skipped hnone hagrees => exact .skipped (houtcome ▸ hnone) hagrees
      | saved hsome hwhere hfiled hwrites hwritten => exact .saved (houtcome ▸ hsome) hwhere hfiled hwrites hwritten
    exact .cons hsame (ih (fun p hp => hfiles p (List.mem_cons_of_mem _ hp))
      (hgrown.trans (hturn.grows (hgrown.unlinked hd))) hrest)

/-! ## What is written -/

/-- A turn keeps what is held under the name of another stem. -/
theorem Turn.holds_of_ne {c : Composition Float} {folder : Path} {stem : FileName} {i : Bool} (h : Turn o outcome? src k k')
    (hd : k.disk.Unlinked) (hstem : outcome? src = none ∨ src.stem ≠ stem)
    (hold : k.disk.Holds (folder.child (outputName stem i)) c) :
    k'.disk.Holds (folder.child (outputName stem i)) c := by
  cases h with
  | skipped _ hagrees =>
    rw [hagrees.disk_eq]
    exact hold
  | saved hsome _ _ hwrites _ =>
    have hne : src.stem ≠ stem := by
      rcases hstem with hnone | hne
      · rw [hsome] at hnone
        cases hnone
      · exact hne
    obtain ⟨picture, hfiled, hfind⟩ := hold
    refine ⟨picture, hfiled, hwrites.find_eq hd (isOutput_outputName _ _) (isOutput_outputName _ _) ?_ hfind⟩
    exact fun hname => hne (outputName_inj.1 hname).1.symm

section Held

variable {folder? : Option Path} (hfolder : o.folder? = .ok folder?)
include hfolder

/-- The paths that turns write, in order. -/
theorem Turns.written_eq (h : Turns o outcome? files k k') :
    k'.written.map Prod.fst = k.written.map Prod.fst ++
      files.filterMap fun p => (outcome? p).map fun c => outputPath p folder? c.fitsIndexed := by
  induction h with
  | nil k => simp
  | cons turn _ ih =>
    rw [ih]
    cases turn with
    | skipped hnone hagrees => rw [hagrees.written_eq, List.filterMap_cons, hnone, Option.map_none]
    | saved hsome hwhere _ _ hwritten =>
      obtain rfl : folder? = _ := by simpa [hfolder] using hwhere
      rw [hwritten, List.filterMap_cons, hsome]
      simp

/-- After the turn of a picture, its output path holds its composition. -/
theorem Turn.holds {c : Composition Float} (h : Turn o outcome? src k k') (hd : k.disk.Unlinked)
    (hc : outcome? src = some c) :
    k'.disk.Holds (outputPath src folder? c.fitsIndexed) c := by
  cases h with
  | skipped hnone _ =>
    rw [hc] at hnone
    cases hnone
  | saved hsome hwhere hfiled hwrites _ =>
    obtain rfl : folder? = _ := by simpa [hfolder] using hwhere
    obtain rfl : c = _ := by simpa [hc] using hsome
    exact ⟨_, hfiled, hwrites.find hd (isOutput_outputName _ _)⟩

/-- Turns keep what an output path holds, unless another picture with the stem is written there. -/
theorem Turns.holds {p : Path} {c : Composition Float} (h : Turns o outcome? files k k') (hd : k.disk.Unlinked)
    (hc : outcome? p = some c) (hlast : ∀ q ∈ files, q ≠ p → q.stem = p.stem → outcome? q = none)
    (hold : k.disk.Holds (outputPath p folder? c.fitsIndexed) c) :
    k'.disk.Holds (outputPath p folder? c.fitsIndexed) c := by
  induction h with
  | nil k => exact hold
  | @cons q files k k1 k' turn _ ih =>
    refine ih ((turn.grows hd).unlinked hd) (fun q hq => hlast q (List.mem_cons_of_mem _ hq)) ?_
    by_cases hqp : q = p
    · -- The same picture once more gives the same composition.
      subst hqp
      exact turn.holds hfolder hd hc
    · refine turn.holds_of_ne hd ?_ hold
      by_cases hstem : q.stem = p.stem
      · exact .inl (hlast q List.mem_cons_self hqp hstem)
      · exact .inr hstem

/-- **The last one stays.** After all turns the output path of a picture holds its composition, unless a later picture with
the same stem was written there. -/
theorem Turns.holds_last (before after : List Path) {p : Path} {c : Composition Float}
    (h : Turns o outcome? (before ++ p :: after) k k') (hd : k.disk.Unlinked) (hc : outcome? p = some c)
    (hlast : ∀ q ∈ after, q ≠ p → q.stem = p.stem → outcome? q = none) :
    k'.disk.Holds (outputPath p folder? c.fitsIndexed) c := by
  induction before generalizing k with
  | nil =>
    cases h with
    | cons turn turns =>
      exact turns.holds hfolder ((turn.grows hd).unlinked hd) hc hlast (turn.holds hfolder hd hc)
  | cons q before ih =>
    cases h with
    | cons turn turns => exact ih turns ((turn.grows hd).unlinked hd)

end Held

/-! ## Whole runs -/

theorem Turns.of_none (h : ∀ p ∈ files, outcome? p = none) (k : Desk) : Turns o outcome? files k k := by
  induction files with
  | nil => exact .nil k
  | cons p files ih =>
    exact .cons (.skipped (h p List.mem_cons_self) (.refl k)) (ih fun q hq => h q (List.mem_cons_of_mem _ hq))

/-- A run on a folder refuses its settings and writes nothing, or it goes through the pictures of the folder. -/
theorem forM_of_run {n : Int} {status : Nat} (hsrc : k.disk.find o.src = .ok (some .folder)) (hjobs : o.jobs = .one n)
    (h : (run env o).run k = .ok (status, k')) :
    (∃ e, o.draft.settings = .error e) ∧ k.Agrees k' ∨
      ∃ k1 live, k.Agrees k1 ∧ ((k.disk.collect o.src).forM (processInFolder env o live)).run k1 = .ok ((), k') := by
  rw [run, Shell.get_bind, lift_bind hsrc] at h
  rcases hs : o.draft.settings with e | s <;> simp only [hs] at h
  · rcases htold : e.told? with _ | s <;> rw [htold] at h
    · cases h
    · obtain ⟨_, k1, hcomplain, hlast⟩ := Shell.bind_eq_ok.1 h
      cases hlast
      exact .inl ⟨⟨e, rfl⟩, agrees_complain hcomplain⟩
  · obtain ⟨_, k1, hline, hprocess⟩ := Shell.bind_eq_ok.1 h
    obtain ⟨_, k2, hfolder, hlast⟩ := Shell.bind_eq_ok.1 hprocess
    cases hlast
    have hk1 := agrees_say hline
    rw [processFolder, Shell.get_bind, hk1.disk_eq] at hfolder
    obtain ⟨k3, hk3, hdebug⟩ := ite_say_inv hfolder
    obtain ⟨k4, hk4, hfiles⟩ := ite_say_inv hdebug
    simp only [hjobs] at hfiles
    exact .inr ⟨k4, _, (hk1.trans hk3).trans hk4, hfiles⟩

/-- **A run on a folder gives all its pictures their turns**, in order. -/
theorem turns_of_run {n : Int} {status : Nat} (hsrc : k.disk.find o.src = .ok (some .folder)) (hjobs : o.jobs = .one n)
    (hd : k.disk.Unlinked) (h : (run env o).run k = .ok (status, k')) :
    ∃ k1, k.Agrees k1 ∧ Turns o (o.outcome? env k.disk) (k.disk.collect o.src) k1 k' := by
  rcases forM_of_run hsrc hjobs h with ⟨⟨e, hs⟩, hagrees⟩ | ⟨k1, live, hagrees, hfiles⟩
  · -- The settings are refused, so no picture has a composition.
    refine ⟨k', hagrees, Turns.of_none ?_ _⟩
    intro p _
    by_contra hsome
    obtain ⟨c, hc⟩ := Option.ne_none_iff_exists'.1 hsome
    obtain ⟨s, hs', -⟩ := Options.settings_of_outcome? hc
    rw [hs] at hs'
    cases hs'
  · refine ⟨k1, hagrees, turns_of_forM hsrc (fun _ hp => hp) hd ?_ hfiles⟩
    rw [hagrees.disk_eq]
    exact .refl _ _

/-- A run on a folder with pictures is done when all of them have had their turns. -/
theorem run_eq_ok {s : Settings Float} {n : Int} (hsrc : k.disk.find o.src = .ok (some .folder))
    (hs : o.draft.settings = .ok s) (hjobs : o.jobs = .one n) (hdebug : o.debug = false) (hfiles : files ≠ [])
    (hcollect : k.disk.collect o.src = files)
    (h : (do say (runLine env o s); files.forM (processInFolder env o (decide (n ≤ 1))) : Shell Unit).run k = .ok ((), k')) :
    (run env o).run k = .ok (success, k') := by
  obtain ⟨_, k1, hline, hforM⟩ := Shell.bind_eq_ok.1 h
  have hfolder : (processFolder env o).run k1 = .ok ((), k') := by
    rw [processFolder, Shell.get_bind, (agrees_say hline).disk_eq, hcollect]
    simp only [List.isEmpty_iff, hfiles, hdebug, hjobs, if_false, Bool.false_eq_true]
    exact hforM
  rw [run, Shell.get_bind, lift_bind hsrc]
  simp only [hs]
  exact Shell.bind_eq_ok.2 ⟨(), k1, hline, Shell.bind_eq_ok.2 ⟨(), k', hfolder, rfl⟩⟩

/-- What a run on a folder comes to, when its steps can be carried out. -/
theorem exists_run {n : Int} {property : Desk → Bool} (hsrc : k.disk.find o.src = .ok (some .folder)) (hjobs : o.jobs = .one n)
    (hdebug : o.debug = false) (hfiles : files ≠ []) (hcollect : k.disk.collect o.src = files)
    (h : (o.draft.settings.toOption.any fun s =>
      ((do say (runLine env o s); files.forM (processInFolder env o (decide (n ≤ 1))) : Shell Unit).run k).toOption.any
        fun r => property r.2) = true) :
    ∃ k', (run env o).run k = .ok (success, k') ∧ property k' = true := by
  rcases hs : o.draft.settings with e | s <;> rw [hs] at h
  · cases h
  rw [Except.toOption, Option.any_some] at h
  generalize hr : StateT.run _ k = r at h
  rcases r with e | ⟨_, k'⟩
  · cases h
  · exact ⟨k', run_eq_ok hsrc hs hjobs hdebug hfiles hcollect hr, h⟩

/-! ## Two pictures with one stem -/

/-- A picture of one row that cannot be seen. -/
def clearRow (width : Nat) : Node := .file (some ⟨.full .colorAlpha [List.replicate width ⟨⟨0, 0, 0⟩, 0⟩], 1⟩)

/-- The folder with two pictures whose names differ in their suffixes alone. -/
def twins : Desk := ⟨⟨[(.ofText "a.bmp", clearRow 1), (.ofText "a.png", clearRow 2)]⟩, [], "", ""⟩

/-- A run on that folder which writes beside the pictures. -/
def twinOptions : Options where
  src := .ofText "."
  outdir := none
  given := [(.tileWidth, .int 1), (.tileHeight, .int 1), (.numPalettes, .int 1), (.colorsPerPalette, .int 3),
    (.colorZero, .zero .transparentAlpha)]
  seed := some (.one 1)
  jobs := .one 1
  workers := .int 1
  debug := false

/-- A machine with four cores. -/
def fourCores : Surroundings := ⟨.int 4, 0, "0.0ms"⟩

theorem twins_find : twins.disk.find twinOptions.src = .ok (some .folder) := rfl

theorem twins_unlinked : twins.disk.Unlinked := by
  intro p t h
  obtain ⟨e, he, hlink⟩ := Option.map_eq_some_iff.1 h
  have hmem := List.mem_of_find?_eq_some he
  simp only [twins, List.mem_cons, List.not_mem_nil, or_false] at hmem
  rcases hmem with rfl | rfl <;> cases hlink

theorem twins_collect : twins.disk.collect twinOptions.src = [.ofText "a.bmp", .ofText "a.png"] := by
  have hinput : (twins.disk.children (.ofText ".")).filter twins.disk.isInput = [.ofText "a.bmp", .ofText "a.png"] := by
    decide +kernel
  show (((twins.disk.children (.ofText ".")).filter twins.disk.isInput).mergeSort Disk.nameLe).map _ = _
  rw [hinput, List.mergeSort_of_pairwise (by decide +kernel)]
  rfl

theorem twins_run : ∃ k', (run fourCores twinOptions).run twins = .ok (success, k') := by
  obtain ⟨k', hrun, -⟩ := @exists_run fourCores twinOptions twins _ 1 (fun _ => true) twins_find rfl rfl
    (List.cons_ne_nil _ _) twins_collect (by decide +kernel)
  exact ⟨k', hrun⟩

/-- Both pictures can be quantized and saved with a table, and what is saved is as wide as the picture. -/
theorem twins_outcomes : ∃ c c',
    twinOptions.outcome? fourCores twins.disk (.ofText "a.bmp") = some c ∧
      twinOptions.outcome? fourCores twins.disk (.ofText "a.png") = some c' ∧
      (c.fitsIndexed = true ∧ (c.filed.toOption.map fun x => (c.reread x).pixels.map List.length) = some [1]) ∧
      c'.fitsIndexed = true ∧ (c'.filed.toOption.map fun x => (c'.reread x).pixels.map List.length) = some [2] := by
  have hvalues : [Path.ofText "a.bmp", .ofText "a.png"].map (fun p => (twinOptions.outcome? fourCores twins.disk p).map
      fun c => (c.fitsIndexed, c.filed.toOption.map fun x => (c.reread x).pixels.map List.length)) =
      [some (true, some [1]), some (true, some [2])] := by
    decide +kernel
  simp only [List.map_cons, List.map_nil, List.cons.injEq, Option.map_eq_some_iff, Prod.mk.injEq, and_true] at hvalues
  obtain ⟨⟨c, hc, hfits, hwidth⟩, c', hc', hfits', hwidth'⟩ := hvalues
  exact ⟨c, c', hc, hc', ⟨hfits, Option.map_eq_some_iff.2 hwidth⟩, hfits', Option.map_eq_some_iff.2 hwidth'⟩

/-! ## Repeating a run -/

/-- The widths of the rows of a picture on a disk. -/
def widthsOf (d : Disk) (p : Path) : Option (List Nat) :=
  ((d.find p).toOption.bind fun node? => node?.bind Node.scan?).map fun scan => scan.pixels.map List.length

/-- A folder with two pictures, in which the output of the second is a link to the first. -/
def linked : Desk :=
  ⟨⟨[(.ofText "a.bmp", clearRow 1), (.ofText "b.bmp", clearRow 2), (.ofText "b_tiles.bmp", .link (.ofText "a.bmp"))]⟩,
    [], "", ""⟩

/-- **Links can lead a run astray.** Through a link with the name of an output the first picture is overwritten with the
output of the second. -/
theorem linked_overwritten :
    linked.disk.find twinOptions.src = .ok (some .folder) ∧
      linked.disk.collect twinOptions.src = [.ofText "a.bmp", .ofText "b.bmp"] ∧
      ∃ k', (run fourCores twinOptions).run linked = .ok (success, k') ∧
        k'.disk.find (.ofText "a.bmp") ≠ linked.disk.find (.ofText "a.bmp") := by
  have hfind : linked.disk.find twinOptions.src = .ok (some .folder) := rfl
  have hcollect : linked.disk.collect twinOptions.src = [.ofText "a.bmp", .ofText "b.bmp"] := by
    have hinput : (linked.disk.children (.ofText ".")).filter linked.disk.isInput = [.ofText "a.bmp", .ofText "b.bmp"] := by
      decide +kernel
    show (((linked.disk.children (.ofText ".")).filter linked.disk.isInput).mergeSort Disk.nameLe).map _ = _
    rw [hinput, List.mergeSort_of_pairwise (by decide +kernel)]
    rfl
  -- the first picture was one column wide, and in the end it is as wide as the second
  obtain ⟨k', hrun, hwidth⟩ := @exists_run fourCores twinOptions linked _ 1
    (fun k' => widthsOf k'.disk (.ofText "a.bmp") == some [2]) hfind rfl rfl (List.cons_ne_nil _ _) hcollect (by decide +kernel)
  refine ⟨hfind, hcollect, k', hrun, fun hsame => ?_⟩
  have hwide : widthsOf linked.disk (.ofText "a.bmp") = some [1] := by decide +kernel
  rw [beq_iff_eq, widthsOf, hsame, ← widthsOf, hwide] at hwidth
  cases hwidth

/-! ## Outputs of a run -/

/-- The output path of a picture of a folder. -/
theorem outputPath_of_collect {p : Path} (hp : p ∈ d.collect src) (folder? : Option Path) (i : Bool) :
    outputPath p folder? i = (folder?.getD src).child (outputName p.stem i) := by
  obtain ⟨r, n, scan, -, rfl, -, -⟩ := Disk.mem_collect hp
  rw [outputPath_eq, Path.parent_child]

/-- **Outputs of a folder.** Let a run with one job work on a folder, and let it write beside the pictures or to some other
folder. Let the disk tell names apart by case, as all disks here do, and let no link on it have the name of an output or lead
to one. Every picture that can be quantized is written under its output path, and two of these paths are the same exactly when
the stems of the pictures are. After the run the path holds the composition of the picture, unless a later picture with the
same stem was written there. -/
theorem run_holds_last {folder? : Option Path} {status : Nat} (hsrc : k.disk.find o.src = .ok (some .folder))
    (hjobs : o.jobs = .one 1) (hlinks : k.disk.Unlinked) (hfolder : o.folder? = .ok folder?)
    (hrun : (run env o).run k = .ok (status, k')) :
    (k'.written.map Prod.fst = k.written.map Prod.fst ++ (k.disk.collect o.src).filterMap fun p =>
      (o.outcome? env k.disk p).map fun c => outputPath p folder? c.fitsIndexed) ∧
    (∀ p ∈ k.disk.collect o.src, ∀ q ∈ k.disk.collect o.src, ∀ c c',
      o.outcome? env k.disk p = some c → o.outcome? env k.disk q = some c' →
      (outputPath p folder? c.fitsIndexed = outputPath q folder? c'.fitsIndexed ↔ p.stem = q.stem)) ∧
    ∀ before p after c, k.disk.collect o.src = before ++ p :: after → o.outcome? env k.disk p = some c →
      (∀ q ∈ after, q ≠ p → q.stem = p.stem → o.outcome? env k.disk q = none) →
      k'.disk.Holds (outputPath p folder? c.fitsIndexed) c := by
  obtain ⟨k1, hk1, hturns⟩ := turns_of_run hsrc hjobs hlinks hrun
  refine ⟨?_, ?_, ?_⟩
  · rw [hturns.written_eq hfolder, hk1.written_eq]
  · intro p hp q hq c c' hc hc'
    obtain ⟨s, hs, hsize⟩ := Options.settings_of_outcome? hc
    obtain ⟨s', hs', hsize'⟩ := Options.settings_of_outcome? hc'
    obtain rfl : s = s' := by simpa [hs] using hs'
    have hfits : c.fitsIndexed = c'.fitsIndexed := by rw [Composition.fitsIndexed, Composition.fitsIndexed, hsize, hsize']
    rw [outputPath_of_collect hp, outputPath_of_collect hq, Path.child_inj, outputName_inj, hfits]
    exact and_iff_left rfl
  · intro before p after c hfiles hc hlast
    rw [hfiles] at hturns
    rw [← hk1.disk_eq] at hlinks
    exact hturns.holds_last hfolder before after hlinks hc hlast

/-- Of two pictures with one stem the later one is kept. -/
theorem run_holds_last_twins : ∃ k' c', (run fourCores twinOptions).run twins = .ok (success, k') ∧
    k'.written.map Prod.fst = [.ofText "a_tiles.bmp", .ofText "a_tiles.bmp"] ∧
    twinOptions.outcome? fourCores twins.disk (.ofText "a.png") = some c' ∧
    k'.disk.Holds (.ofText "a_tiles.bmp") c' := by
  obtain ⟨k', hrun⟩ := twins_run
  obtain ⟨c, c', hc, hc', ⟨hfits, -⟩, hfits', -⟩ := twins_outcomes
  obtain ⟨hwritten, -, hlast⟩ := run_holds_last twins_find rfl twins_unlinked rfl hrun
  have hheld := hlast [.ofText "a.bmp"] (.ofText "a.png") [] c' twins_collect hc' fun _ hq => absurd hq List.not_mem_nil
  rw [twins_collect] at hwritten
  simp only [List.filterMap_cons, List.filterMap_nil, hc, hc', Option.map_some, hfits, hfits'] at hwritten
  rw [hfits'] at hheld
  exact ⟨k', c', hrun, hwritten.trans (by decide +kernel), hc', hheld⟩

/-- **An output can be lost.** Both pictures are written under one path, and then it does not hold what the first one gave. -/
theorem twins_lost : ∃ k' c c', (run fourCores twinOptions).run twins = .ok (success, k') ∧
    twins.disk.collect twinOptions.src = [.ofText "a.bmp", .ofText "a.png"] ∧
    twinOptions.outcome? fourCores twins.disk (.ofText "a.bmp") = some c ∧
    twinOptions.outcome? fourCores twins.disk (.ofText "a.png") = some c' ∧
    outputPath (.ofText "a.bmp") none c.fitsIndexed = outputPath (.ofText "a.png") none c'.fitsIndexed ∧
    ¬ k'.disk.Holds (outputPath (.ofText "a.bmp") none c.fitsIndexed) c := by
  obtain ⟨k', hrun⟩ := twins_run
  obtain ⟨c, c', hc, hc', ⟨hfits, hwidth⟩, hfits', hwidth'⟩ := twins_outcomes
  have hpath : outputPath (.ofText "a.bmp") none c.fitsIndexed = outputPath (.ofText "a.png") none c'.fitsIndexed := by
    rw [hfits, hfits']
    decide +kernel
  refine ⟨k', c, c', hrun, twins_collect, hc, hc', hpath, ?_⟩
  obtain ⟨k1, hk1, hturns⟩ := turns_of_run twins_find rfl twins_unlinked hrun
  have hlinks : k1.disk.Unlinked := hk1.disk_eq ▸ twins_unlinked
  rw [twins_collect] at hturns
  obtain ⟨picture', hfiled', hfind'⟩ := hturns.holds_last rfl [.ofText "a.bmp"] [] hlinks hc' fun _ hq =>
    absurd hq List.not_mem_nil
  rintro ⟨picture, hfiled, hfind⟩
  -- What is found there would be one column wide and two columns wide.
  rw [hpath, hfind'] at hfind
  have hsame : c'.reread picture' = c.reread picture := by simpa using hfind
  rw [hfiled, Except.toOption, Option.map_some, Option.some.injEq] at hwidth
  rw [hfiled', Except.toOption, Option.map_some, hsame, hwidth] at hwidth'
  exact absurd hwidth' (by decide)

end Command

end Tessera
