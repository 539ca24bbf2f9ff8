import Mathlib
import Tessera.Command.Output
import Tessera.Proofs.Files
import Tessera.Proofs.Settings
/-!
# Disks that grow

What a run writes has a name of its own kind: the stem ends in the mark, so the name is never that of a picture to work on
(`not_isInput_outputName`), and two such names are the same only for the same stem. A disk grows when folders are made and
files are written; `Disk.Grows` says what stays as it was, and where files were written. Paths that led somewhere still lead
there (`Disk.Grows.walk_eq`), and so a file that is not written to is still found.

What is assumed of links is that none has the name of an output or leads to one (`Disk.Unlinked`). Then nothing but an
output is written to, and the same pictures are collected (`Disk.Grows.collect_eq`). They are so however the disk lists them,
as long as no two of them are named alike but for case (`Disk.collect_relisted`).
-/

namespace Tessera

/-! ## Names of what is written -/

namespace FileName

/-- A name with a suffix put behind it divides there. -/
theorem split_append {n tail : FileName} (h : '.' ∉ tail) (hn : n ≠ []) (ht : tail ≠ []) :
    (n ++ '.' :: tail).split = (n, '.' :: tail) := by
  have hcut : ¬ ((tail.reverse.isEmpty || n.reverse.isEmpty) = true) := by simp [hn, ht]
  rw [split, span_append n h]
  dsimp only
  rw [if_neg hcut, List.reverse_reverse, List.reverse_reverse]

theorem ending_append_of_mem {n tail : FileName} (h : '.' ∉ tail) {c : Char} (hc : c ∈ n) (hdot : c ≠ '.') :
    (n ++ '.' :: tail).ending = '.' :: tail := by
  have hdots : ¬ (n.reverse.all (· == '.') = true) := fun hall =>
    hdot (by simpa using List.all_eq_true.1 hall c (List.mem_reverse.2 hc))
  rw [ending, span_append n h]
  dsimp only
  rw [if_neg hdots, List.reverse_reverse]

theorem ne_up_of_isInput {n : FileName} (h : n.isInput) : n ≠ up := by
  rintro rfl
  revert h
  decide +kernel

end FileName

/-- The name of what is written for a picture with some stem. -/
def outputName (stem : FileName) (indexed : Bool) : FileName := stem ++ outputMark ++ outputSuffix indexed

theorem outputPath_eq (src : Path) (folder? : Option Path) (indexed : Bool) :
    outputPath src folder? indexed = (folder?.getD src.parent).child (outputName src.stem indexed) := rfl

theorem outputSuffix_eq (indexed : Bool) : ∃ tail, outputSuffix indexed = '.' :: tail ∧ '.' ∉ tail ∧ tail ≠ [] := by
  cases indexed with
  | true => exact ⟨"bmp".toList, rfl, by decide, by decide⟩
  | false => exact ⟨"png".toList, rfl, by decide, by decide⟩

theorem split_outputName (stem : FileName) (indexed : Bool) :
    (outputName stem indexed).split = (stem ++ outputMark, outputSuffix indexed) := by
  obtain ⟨tail, htail, hdot, hne⟩ := outputSuffix_eq indexed
  have hmark : stem ++ outputMark ≠ [] := List.append_ne_nil_of_right_ne_nil _ (by decide)
  rw [outputName, htail, FileName.split_append hdot hmark hne]

/-- What is written is not a picture to work on. -/
theorem not_isInput_outputName (stem : FileName) (indexed : Bool) : ¬ (outputName stem indexed).isInput := by
  have hmark : outputMark.isSuffixOf (stem ++ outputMark) = true := List.isSuffixOf_iff_suffix.2 (List.suffix_append _ _)
  simp [FileName.isInput, FileName.stem, split_outputName, hmark]

/-- The names of what a run can write. -/
def FileName.IsOutput (n : FileName) : Prop := ∃ stem indexed, n = outputName stem indexed

theorem isOutput_outputName (stem : FileName) (indexed : Bool) : (outputName stem indexed).IsOutput := ⟨stem, indexed, rfl⟩

theorem FileName.IsOutput.not_isInput {n : FileName} (h : n.IsOutput) : ¬ n.isInput := by
  obtain ⟨stem, indexed, rfl⟩ := h
  exact not_isInput_outputName stem indexed

/-- The name tells the stem and the kind of file. -/
theorem outputName_inj {s t : FileName} {i j : Bool} : outputName s i = outputName t j ↔ s = t ∧ i = j := by
  refine ⟨fun h => ?_, fun h => by rw [h.1, h.2]⟩
  have hsplit := congrArg FileName.split h
  rw [split_outputName, split_outputName, Prod.mk.injEq, List.append_left_inj] at hsplit
  refine ⟨hsplit.1, ?_⟩
  have hsuffix := hsplit.2
  revert hsuffix
  cases i <;> cases j <;> decide

theorem outputName_ne_up (stem : FileName) (indexed : Bool) : outputName stem indexed ≠ FileName.up := by
  intro h
  have hsplit := split_outputName stem indexed
  rw [h] at hsplit
  have hsuffix : FileName.up.split.2 = outputSuffix indexed := by rw [hsplit]
  revert hsuffix
  cases indexed <;> decide

theorem FileName.IsOutput.ne_up {n : FileName} (h : n.IsOutput) : n ≠ FileName.up := by
  obtain ⟨stem, indexed, rfl⟩ := h
  exact outputName_ne_up stem indexed

theorem forWriting_outputName (stem : FileName) (indexed : Bool) :
    Format.forWriting (outputName stem indexed) = .ok (if indexed then .bmp else .png) := by
  obtain ⟨tail, htail, hdot, -⟩ := outputSuffix_eq indexed
  have hending : (outputName stem indexed).ending = outputSuffix indexed := by
    rw [outputName, htail]
    exact FileName.ending_append_of_mem hdot (c := '_') (List.mem_append_right _ (by decide)) (by decide)
  have hname : Format.ofName? (outputName stem indexed) = some (if indexed then .bmp else .png) := by
    rw [Format.ofName?, hending]
    cases indexed <;> decide +kernel
  rw [Format.forWriting, hname]
  cases indexed <;> rfl

namespace Path

@[simp] theorem name_child (p : Path) (n : FileName) : (p.child n).name = n := by simp [child, name]

@[simp] theorem parent_child (p : Path) (n : FileName) : (p.child n).parent = p := by simp [child, parent]

theorem child_inj {p : Path} {m n : FileName} : p.child m = p.child n ↔ m = n := by simp [child]

theorem child_parent {p : Path} (h : p.names ≠ []) : p.parent.child p.name = p := by
  have hlast : p.name = p.names.getLast h := by rw [name, List.getLast?_eq_some_getLast h]; rfl
  rw [hlast]
  simp only [child, parent, List.dropLast_append_getLast]

end Path

namespace Disk

variable {d d' d'' : Disk} {p q : Path}

/-! ## What stands on a disk -/

/-- The paths of a disk. -/
def paths (d : Disk) : List Path := d.entries.map Prod.fst

theorem get?_eq_none : d.get? p = none ↔ p ∉ d.paths := by
  simp only [get?, paths, Option.map_eq_none_iff, List.find?_eq_none, List.mem_map, decide_eq_true_eq, not_exists, not_and]

theorem fst_replace (q : Path) (n : Node) (e : Path × Node) : (if e.1 = q then (q, n) else e).1 = e.1 := by
  by_cases h : e.1 = q
  · rw [if_pos h, h]
  · rw [if_neg h]

theorem paths_put (d : Disk) (q : Path) (n : Node) : ∃ new, (d.put q n).paths = d.paths ++ new ∧ ∀ p ∈ new, p ∉ d.paths := by
  unfold put paths
  split
  · refine ⟨[], ?_, fun _ h => absurd h List.not_mem_nil⟩
    simp only [List.map_map, Function.comp_def, fst_replace, List.append_nil]
  · rename_i hany
    refine ⟨[q], List.map_append, ?_⟩
    simpa using hany

theorem nodup_put (d : Disk) (q : Path) (n : Node) (h : d.paths.Nodup) : (d.put q n).paths.Nodup := by
  unfold put paths
  split
  · simp only [List.map_map, Function.comp_def, fst_replace]
    exact h
  · rename_i hany
    rw [List.map_append, List.nodup_append]
    refine ⟨h, List.nodup_singleton _, ?_⟩
    simp only [List.map_cons, List.map_nil, List.mem_singleton]
    rintro x hx _ rfl rfl
    obtain ⟨e, he, hxe⟩ := List.mem_map.1 hx
    exact hany (List.any_eq_true.2 ⟨e, he, by simpa using hxe⟩)

theorem get?_put_of_ne (n : Node) (h : p ≠ q) : (d.put q n).get? p = d.get? p := by
  unfold put get?
  split
  · have hkeys : ((fun e : Path × Node => decide (e.1 = p)) ∘ fun e => if e.1 = q then (q, n) else e) =
        fun e => decide (e.1 = p) := funext fun e => by rw [Function.comp_apply, fst_replace]
    -- The same entry is found as before, and it is not the one that is replaced.
    rw [List.find?_map, hkeys]
    rcases he : d.entries.find? fun e : Path × Node => decide (e.1 = p) with _ | e
    · rfl
    · have hep : e.1 = p := by simpa using List.find?_some he
      simp [hep, h]
  · rw [List.find?_append]
    simp [h.symm]

theorem get?_of_not_isFolder (h : ¬ d.isFolder p) (hfile : ¬ (d.get? p).any Node.isFile)
    (hlink : ¬ (d.get? p).any Node.isLink) : d.get? p = none := by
  rcases hp : d.get? p with _ | _ | _ | _
  · rfl
  · simp [isFolder, hp, Node.isFolder] at h
  · simp [hp, Node.isFile] at hfile
  · simp [hp, Node.isLink] at hlink

theorem not_isFolder_of_file {scan? : Option Scan} (hp : p.names ≠ []) (h : d.get? p = some (.file scan?)) :
    ¬ d.isFolder p := by
  simp [isFolder, h, hp, Node.isFolder]

/-! ## Links -/

theorem not_isLink_iff : ¬ (d.get? p).any Node.isLink ↔ ∀ t, d.get? p ≠ some (.link t) := by
  rcases d.get? p with _ | _ | _ | _ <;> simp [Node.isLink]

theorem follow_of_link (h : d.get? p = some (.link q)) : d.follow p = q := by
  rw [follow, h]

theorem follow_of_not_link (h : ∀ t, d.get? p ≠ some (.link t)) : d.follow p = p := by
  rw [follow]
  split
  · rename_i t ht
    exact absurd ht (h t)
  · rfl

/-- A path that stands for another place is a link to it. -/
theorem follow_cases (d : Disk) (p : Path) : d.get? p = some (.link (d.follow p)) ∨ d.follow p = p := by
  by_cases h : ∃ t, d.get? p = some (.link t)
  · obtain ⟨t, ht⟩ := h
    exact .inl (by rw [ht, follow_of_link ht])
  · exact .inr (follow_of_not_link (not_exists.1 h))

/-- No link has the name of an output, or leads to one. -/
def Unlinked (d : Disk) : Prop := ∀ p t, d.get? p = some (.link t) → ¬ p.name.IsOutput ∧ ¬ t.name.IsOutput

theorem Unlinked.follow_step (h : d.Unlinked) (r : Path) {n : FileName} (hn : n.IsOutput) :
    d.follow (r.step n) = r.child n := by
  rw [Path.step, if_neg hn.ne_up]
  refine follow_of_not_link fun t ht => (h _ t ht).1 ?_
  rw [Path.name_child]
  exact hn

/-- What has no output's name stands for no output's place. -/
theorem Unlinked.follow_name (h : d.Unlinked) (hp : ¬ p.name.IsOutput) : ¬ (d.follow p).name.IsOutput := by
  rcases d.follow_cases p with hlink | hsame
  · exact (h _ _ hlink).2
  · rw [hsame]
    exact hp

/-! ## Growing -/

/-- A disk after folders were made and files with given names were written. No link was made or replaced. -/
structure Grows (d d' : Disk) (written : FileName → Prop) : Prop where
  paths_eq : ∃ new, d'.paths = d.paths ++ new ∧ ∀ p ∈ new, p ∉ d.paths
  nodup : d.paths.Nodup → d'.paths.Nodup
  get?_eq : ∀ p, ¬ written p.name → d'.get? p = d.get? p ∨ d.get? p = none ∧ d'.get? p = some .folder
  isFolder : ∀ p, d.isFolder p → d'.isFolder p
  link_iff : ∀ p t, d'.get? p = some (.link t) ↔ d.get? p = some (.link t)

namespace Grows

variable {written written' : FileName → Prop}

theorem refl (d : Disk) (written : FileName → Prop) : Grows d d written :=
  ⟨⟨[], (List.append_nil _).symm, fun _ h => absurd h List.not_mem_nil⟩, fun h => h, fun _ _ => .inl rfl, fun _ h => h,
    fun _ _ => .rfl⟩

theorem trans (h : Grows d d' written) (h' : Grows d' d'' written) : Grows d d'' written := by
  refine ⟨?_, fun hd => h'.nodup (h.nodup hd), fun p hp => ?_, fun p hp => h'.isFolder p (h.isFolder p hp),
    fun p t => (h'.link_iff p t).trans (h.link_iff p t)⟩
  · obtain ⟨new, hpaths, hnew⟩ := h.paths_eq
    obtain ⟨new', hpaths', hnew'⟩ := h'.paths_eq
    refine ⟨new ++ new', by rw [hpaths', hpaths, List.append_assoc], fun p hp => ?_⟩
    rcases List.mem_append.1 hp with hp | hp
    · exact hnew p hp
    · exact fun hold => hnew' p hp (hpaths ▸ List.mem_append_left _ hold)
  · rcases h.get?_eq p hp with heq | ⟨hnone, hfolder⟩ <;> rcases h'.get?_eq p hp with heq' | ⟨hnone', hfolder'⟩
    · exact .inl (heq'.trans heq)
    · exact .inr ⟨heq.symm.trans hnone', hfolder'⟩
    · exact .inr ⟨hnone, heq'.trans hfolder⟩
    · -- A folder that was made is there, so it is not made once more.
      rw [hfolder] at hnone'
      cases hnone'

theorem mono (h : Grows d d' written) (hsub : ∀ n, written n → written' n) : Grows d d' written' :=
  ⟨h.paths_eq, h.nodup, fun p hp => h.get?_eq p fun hw => hp (hsub _ hw), h.isFolder, h.link_iff⟩

/-- Putting something that is no link where there is no folder and no link. -/
theorem put_of_not_link {n : Node} (hn : ∀ t, n ≠ .link t) (hq : ¬ d.isFolder q) (hlink : ¬ (d.get? q).any Node.isLink)
    (hget : ∀ p, ¬ written p.name →
      (d.put q n).get? p = d.get? p ∨ d.get? p = none ∧ (d.put q n).get? p = some .folder) :
    Grows d (d.put q n) written := by
  refine ⟨paths_put d q _, nodup_put d q n, hget, fun p hp => ?_, fun p t => ?_⟩
  · have hne : p ≠ q := by
      rintro rfl
      exact hq hp
    rw [Disk.isFolder, get?_put_of_ne _ hne]
    exact hp
  · by_cases hpq : p = q
    · rw [hpq, get?_put_self]
      refine ⟨fun h => absurd (Option.some.inj h) (hn t), fun h => absurd h (not_isLink_iff.1 hlink t)⟩
    · rw [get?_put_of_ne _ hpq]

/-- Writing a file where there is no folder and no link. -/
theorem put (hq : ¬ d.isFolder q) (hlink : ¬ (d.get? q).any Node.isLink) (scan? : Option Scan) :
    Grows d (d.put q (.file scan?)) (· = q.name) := by
  refine put_of_not_link (fun t h => by cases h) hq hlink fun p hp => .inl (get?_put_of_ne _ ?_)
  rintro rfl
  exact hp rfl

/-- Making a folder where there is nothing. -/
theorem ensure (hfree : ¬ d.isFolder q → d.get? q = none) (written : FileName → Prop) : Grows d (d.ensure q) written := by
  rw [Disk.ensure]
  split
  · exact refl d written
  · rename_i hfolder
    have hnone := hfree hfolder
    refine put_of_not_link (fun t h => by cases h) hfolder (by simp [hnone]) fun p _ => ?_
    by_cases hpq : p = q
    · rw [hpq]
      exact .inr ⟨hnone, get?_put_self ..⟩
    · exact .inl (get?_put_of_ne _ hpq)

theorem makeFrom {ns : List FileName} (h : d.makeFrom p ns = .ok d') (written : FileName → Prop) :
    Grows d d' written := by
  induction ns generalizing d p with
  | nil =>
    cases h
    exact refl _ written
  | cons n ns ih =>
    simp only [Disk.makeFrom] at h
    split at h
    · cases h
    split at h
    · cases h
    rename_i hfile
    split at h
    · cases h
    rename_i hlink
    refine (ensure (fun hfolder => get?_of_not_isFolder hfolder hfile ?_) written).trans (ih h)
    -- a link that leads to no folder was refused, so the name is no link
    have hstep : ¬ (d.get? (p.step n)).any Node.isLink := by simpa [hfolder] using hlink
    rwa [follow_of_not_link (not_isLink_iff.1 hstep)]

theorem makeFolder (h : d.makeFolder p = .ok d') (written : FileName → Prop) : Grows d d' written := by
  obtain ⟨_, -, h⟩ := bind_eq_ok.1 h
  split at h
  · cases h
  · exact makeFrom h written

/-! ## Following paths on a disk that grows -/

theorem follow_eq (h : Grows d d' written) (p : Path) : d'.follow p = d.follow p := by
  rcases d.follow_cases p with hlink | hsame
  · rw [follow_of_link ((h.link_iff p _).2 hlink)]
  · rcases d'.follow_cases p with hlink' | hsame'
    · rw [follow_of_link ((h.link_iff p _).1 hlink')]
    · rw [hsame, hsame']

theorem unlinked (h : Grows d d' written) (hd : d.Unlinked) : d'.Unlinked := fun p t ht => hd p t ((h.link_iff p t).1 ht)

/-- A path that led somewhere, or was refused, does as before. -/
theorem walk_eq (h : Grows d d' written) {ns : List FileName} (hw : d.walk p ns ≠ .ok none) :
    d'.walk p ns = d.walk p ns := by
  induction ns generalizing p with
  | nil => rfl
  | cons n ns ih =>
    by_cases hp : d.isFolder p
    · have hp' := h.isFolder p hp
      simp only [Disk.walk, hp, hp', not_true_eq_false, if_false] at hw ⊢
      split
      · rfl
      · rename_i hlong
        rw [if_neg hlong] at hw
        rw [h.follow_eq]
        exact ih hw
    · rw [Disk.walk, if_pos hp] at hw
      exact absurd rfl hw

theorem resolve_eq (h : Grows d d' written) (hp : d.resolve p ≠ .ok none) : d'.resolve p = d.resolve p := by
  unfold resolve at hp ⊢
  split
  · rfl
  · rename_i hlong
    rw [if_neg hlong] at hp
    exact h.walk_eq hp

/-- A file that is not written to is found as before. -/
theorem find_eq (h : Grows d d' written) (hp : d.resolve p ≠ .ok none)
    (hfile : ∀ q, d.resolve p = .ok (some q) → ¬ written q.name ∧ ∃ scan?, d.get? q = some (.file scan?)) :
    d'.find p = d.find p := by
  unfold find
  rw [h.resolve_eq hp]
  split
  · rfl
  rcases hq : d.resolve p with e | _ | q
  · rfl
  · exact absurd hq hp
  · obtain ⟨hwritten, scan?, hget⟩ := hfile q hq
    have hget' : d'.get? q = d.get? q := by
      rcases h.get?_eq q hwritten with heq | ⟨hnone, -⟩
      · exact heq
      · rw [hnone] at hget
        cases hget
    show Except.ok (if d'.isFolder q then some .folder else (d'.get? q).filter Node.isFile) =
      Except.ok (if d.isFolder q then some .folder else (d.get? q).filter Node.isFile)
    rw [Disk.isFolder, Disk.isFolder, hget']

end Grows

/-! ## Names in a folder -/

/-- A path with one more name leads to that name in the folder that the path leads to. -/
theorem walk_concat {ns : List FileName} {n : FileName} {r : Path} (h : d.walk p ns = .ok (some r)) (hr : d.isFolder r) :
    d.walk p (ns ++ [n]) = if n.isTooLong then refuse .longName else pure (some (d.follow (r.step n))) := by
  induction ns generalizing p with
  | nil =>
    cases h
    simp only [List.nil_append, Disk.walk, hr, not_true_eq_false, if_false]
  | cons m ns ih =>
    rw [List.cons_append]
    unfold Disk.walk at h ⊢
    split at h
    · cases h
    rename_i hfolder
    split at h
    · cases h
    rename_i hlong
    rw [if_neg hfolder, if_neg hlong]
    exact ih h

/-- A path with one more name leads somewhere only if the path leads to a folder. -/
theorem walk_concat_inv {ns : List FileName} {n : FileName} (h : d.walk p (ns ++ [n]) = .ok (some q)) :
    ∃ r, d.walk p ns = .ok (some r) ∧ d.isFolder r ∧ q = d.follow (r.step n) := by
  induction ns generalizing p with
  | nil =>
    simp only [List.nil_append, Disk.walk] at h
    split at h
    · cases h
    rename_i hfolder
    split at h
    · cases h
    · cases h
      exact ⟨p, rfl, by simpa using hfolder, rfl⟩
  | cons m ns ih =>
    rw [List.cons_append] at h
    unfold Disk.walk at h ⊢
    split at h
    · cases h
    rename_i hfolder
    split at h
    · cases h
    rename_i hlong
    rw [if_neg hfolder, if_neg hlong]
    exact ih h

theorem resolve_child {folder r : Path} {n : FileName} (h : d.resolve folder = .ok (some r)) (hr : d.isFolder r) :
    d.resolve (folder.child n) = .ok (some (d.follow (r.step n))) ∨ ∃ e, d.resolve (folder.child n) = .error e := by
  unfold resolve at h ⊢
  split
  · exact .inr ⟨_, rfl⟩
  split at h
  · cases h
  rw [Path.child, walk_concat h hr]
  split
  · exact .inr ⟨_, rfl⟩
  · exact .inl rfl

theorem resolve_child_inv {folder : Path} {n : FileName} (h : d.resolve (folder.child n) = .ok (some q)) :
    ∃ r : Path, q = d.follow (r.step n) := by
  unfold resolve at h
  split at h
  · cases h
  · obtain ⟨r, -, -, hq⟩ := walk_concat_inv h
    exact ⟨r, hq⟩

/-- What a path leads to is what stands at its place. -/
theorem find_inv {n : Node} (h : d.find p = .ok (some n)) :
    ∃ q, d.resolve p = .ok (some q) ∧ (if d.isFolder q then some .folder else (d.get? q).filter Node.isFile) = some n := by
  unfold find at h
  split at h
  · cases h
  obtain ⟨q?, hq, h⟩ := bind_eq_ok.1 h
  rcases q? with _ | q
  · cases h
  · exact ⟨q, hq, Except.ok.inj h⟩

theorem resolve_of_find_folder (h : d.find p = .ok (some .folder)) : ∃ r, d.resolve p = .ok (some r) ∧ d.isFolder r := by
  obtain ⟨q, hq, hnode⟩ := find_inv h
  refine ⟨q, hq, ?_⟩
  by_contra hfolder
  rw [if_neg hfolder, Option.filter_eq_some_iff] at hnode
  exact absurd hnode.2 (by decide)

theorem resolve_of_find_file {scan? : Option Scan} (h : d.find p = .ok (some (.file scan?))) :
    ∃ q, d.resolve p = .ok (some q) ∧ d.get? q = some (.file scan?) := by
  obtain ⟨q, hq, hnode⟩ := find_inv h
  refine ⟨q, hq, ?_⟩
  split at hnode
  · cases hnode
  · exact (Option.filter_eq_some_iff.1 hnode).1

/-! ## Writing -/

/-- A place for a file is what its path leads to, and no folder and no link. -/
theorem place_inv (h : d.place p = .ok q) :
    ¬ p.isImpossible ∧ d.resolve p = .ok (some q) ∧ ¬ d.isFolder q ∧ ¬ (d.get? q).any Node.isLink := by
  obtain ⟨_, hpossible, h⟩ := bind_eq_ok.1 h
  obtain ⟨q?, hq, h⟩ := bind_eq_ok.1 h
  rw [checkPossible] at hpossible
  split at hpossible
  · cases hpossible
  split at hpossible
  · cases hpossible
  rcases q? with _ | r
  · cases h
  replace h : (if d.isFolder r then refuse .isFolder else if (d.get? r).any Node.isLink then refuse .noWay else pure r) =
    (.ok q : Result Path) := h
  split at h
  · cases h
  split at h
  · cases h
  · cases h
    exact ⟨‹_›, hq, ‹_›, ‹_›⟩

/-- A disk after a file was written under a path, with the folder that it goes to. -/
def Writes (d d' : Disk) (p : Path) (scan? : Option Scan) : Prop :=
  ∃ d1 q, d.makeFolder p.parent = .ok d1 ∧ d1.place p = .ok q ∧ d' = d1.put q (.file scan?)

namespace Writes

variable {folder : Path} {n : FileName} {scan? : Option Scan}

/-- An output is written at its own place in the folder that its path leads to, and nothing else is written. -/
theorem exists_place (h : d.Writes d' (folder.child n) scan?) (hd : d.Unlinked) (hn : n.IsOutput) :
    Grows d d' (· = n) ∧ ¬ (folder.child n).isImpossible ∧
      ∃ r : Path, d'.resolve (folder.child n) = .ok (some (r.child n)) ∧ d'.get? (r.child n) = some (.file scan?) := by
  obtain ⟨d1, q, hmake, hplace, rfl⟩ := h
  obtain ⟨hpossible, hq, hfolder, hlink⟩ := place_inv hplace
  have hgrown := Grows.makeFolder hmake (· = n)
  obtain ⟨r, rfl⟩ := resolve_child_inv hq
  rw [(hgrown.unlinked hd).follow_step r hn] at hq hfolder hlink ⊢
  have hput := Grows.put hfolder hlink scan?
  rw [Path.name_child] at hput
  refine ⟨hgrown.trans hput, hpossible, r, ?_, get?_put_self ..⟩
  rw [hput.resolve_eq (by rw [hq]; exact fun h => by cases h), hq]

theorem grows (h : d.Writes d' (folder.child n) scan?) (hd : d.Unlinked) (hn : n.IsOutput) :
    Grows d d' FileName.IsOutput := by
  refine (h.exists_place hd hn).1.mono ?_
  rintro _ rfl
  exact hn

/-- What is written under a path is found there. -/
theorem find (h : d.Writes d' (folder.child n) scan?) (hd : d.Unlinked) (hn : n.IsOutput) :
    d'.find (folder.child n) = .ok (some (.file scan?)) := by
  obtain ⟨-, hpossible, r, hresolve, hget⟩ := h.exists_place hd hn
  rw [Disk.find, if_neg hpossible, hresolve]
  show Except.ok (if _ then some Node.folder else _) = _
  rw [if_neg (not_isFolder_of_file (by simp [Path.child]) hget), hget]
  rfl

/-- An output with another name is found as before. -/
theorem find_eq (h : d.Writes d' (folder.child n) scan?) (hd : d.Unlinked) (hn : n.IsOutput) {m : FileName} {folder' : Path}
    (hm : m.IsOutput) (hmn : m ≠ n) {scan' : Option Scan} (hfind : d.find (folder'.child m) = .ok (some (.file scan'))) :
    d'.find (folder'.child m) = .ok (some (.file scan')) := by
  obtain ⟨q, hq, hget⟩ := resolve_of_find_file hfind
  rw [← hfind]
  refine (h.exists_place hd hn).1.find_eq (by rw [hq]; exact fun h => by cases h) fun q' hq' => ?_
  obtain rfl : q = q' := by simpa [hq] using hq'
  obtain ⟨r, rfl⟩ := resolve_child_inv hq
  refine ⟨?_, _, hget⟩
  rw [hd.follow_step r hm, Path.name_child]
  exact hmn

end Writes

/-! ## Pictures to work on -/

/-- What is collected stands in the folder, and it stands for a picture. -/
theorem mem_collect {folder : Path} (h : p ∈ d.collect folder) :
    ∃ r n scan, d.resolve folder = .ok (some r) ∧ p = folder.child n ∧ n.isInput ∧
      d.get? (d.follow (r.child n)) = some (.file (some scan)) := by
  unfold collect at h
  rcases hr : d.resolve folder with e | _ | r <;> rw [hr] at h
  · exact absurd h List.not_mem_nil
  · exact absurd h List.not_mem_nil
  obtain ⟨q, hq, rfl⟩ := List.mem_map.1 h
  obtain ⟨hchild, hinput⟩ := List.mem_filter.1 (List.mem_mergeSort.1 hq)
  obtain ⟨-, hq⟩ := List.mem_filter.1 hchild
  simp only [Bool.and_eq_true, bne_iff_ne, ne_eq, decide_eq_true_eq] at hq
  obtain ⟨hname, hscan⟩ := Bool.and_eq_true_iff.1 hinput
  obtain ⟨scan, hscan⟩ := Option.isSome_iff_exists.1 hscan
  refine ⟨r, q.name, scan, rfl, rfl, hname, ?_⟩
  rw [← hq.2, Path.child_parent hq.1]
  rw [Disk.scan?] at hscan
  rcases hget : d.get? (d.follow q) with _ | _ | scan? | t <;> rw [hget] at hscan <;> cases hscan
  rfl

namespace Grows

variable {folder : Path} (h : Grows d d' FileName.IsOutput) (hd : d.Unlinked)

include h hd

/-- What was collected is found as before. -/
theorem find_collected (hf : d.find folder = .ok (some .folder)) (hp : p ∈ d.collect folder) : d'.find p = d.find p := by
  obtain ⟨r, n, scan, hr, rfl, hn, hget⟩ := mem_collect hp
  obtain ⟨r', hr', hfolder⟩ := resolve_of_find_folder hf
  obtain rfl : r = r' := by simpa [hr] using hr'
  have hstep : r.step n = r.child n := if_neg (FileName.ne_up_of_isInput hn)
  rcases resolve_child (n := n) hr hfolder with hq | ⟨e, he⟩
  · refine h.find_eq (by rw [hq]; exact fun h => by cases h) fun q hq' => ?_
    obtain rfl : d.follow (r.step n) = q := by simpa [hq] using hq'
    rw [hstep]
    refine ⟨hd.follow_name ?_, _, hget⟩
    rw [Path.name_child]
    exact fun hout => hout.not_isInput hn
  · exact h.find_eq (by rw [he]; exact fun h => by cases h) fun q hq => by simp [he] at hq

end Grows

end Disk

/-! ## Other orders of listing -/

namespace FileName

/-- Names are ordered by their first characters that differ. -/
theorem le_cons_iff {a b : Char} {m n : FileName} :
    le (a :: m) (b :: n) ↔ a.toNat < b.toNat ∨ a = b ∧ le m n := by
  rw [le]
  by_cases hab : a = b
  · subst hab
    simp
  · simp [hab]

theorem le_antisymm {m n : FileName} (h : le m n) (h' : le n m) : m = n := by
  induction m generalizing n with
  | nil =>
    cases n with
    | nil => rfl
    | cons => cases h'
  | cons a m ih =>
    cases n with
    | nil => cases h
    | cons b n =>
      rcases le_cons_iff.1 h with hlt | ⟨rfl, hrest⟩
      · rcases le_cons_iff.1 h' with hgt | ⟨rfl, -⟩ <;> omega
      · rcases le_cons_iff.1 h' with hgt | ⟨-, hrest'⟩
        · omega
        · rw [ih hrest hrest']

theorem le_trans {l m n : FileName} (h : le l m) (h' : le m n) : le l n := by
  induction l generalizing m n with
  | nil => rfl
  | cons a l ih =>
    cases m with
    | nil => cases h
    | cons b m =>
      cases n with
      | nil => cases h'
      | cons c n =>
        rw [le_cons_iff] at h h' ⊢
        rcases h with hlt | ⟨rfl, hrest⟩
        · rcases h' with hlt' | ⟨rfl, -⟩
          · exact .inl (hlt.trans hlt')
          · exact .inl hlt
        · exact h'.imp_right fun ⟨hbc, hrest'⟩ => ⟨hbc, ih hrest hrest'⟩

theorem le_total (m n : FileName) : le m n || le n m := by
  induction m generalizing n with
  | nil => rfl
  | cons a m ih =>
    cases n with
    | nil => rfl
    | cons b n =>
      rw [Bool.or_eq_true, le_cons_iff, le_cons_iff]
      rcases lt_trichotomy a.toNat b.toNat with hlt | heq | hgt
      · exact .inl (.inl hlt)
      · obtain rfl := Char.toNat_inj.1 heq
        have hrest := ih n
        rw [Bool.or_eq_true] at hrest
        exact hrest.imp (fun h => .inr ⟨rfl, h⟩) fun h => .inr ⟨rfl, h⟩
      · exact .inr (.inl hgt)

end FileName

namespace Disk

variable {d d' : Disk}

/-- With one entry for each path, an entry is what stands under its path. -/
theorem get?_eq_some_iff (hd : d.paths.Nodup) {p : Path} {n : Node} : d.get? p = some n ↔ (p, n) ∈ d.entries := by
  constructor
  · intro h
    obtain ⟨e, he, rfl⟩ := Option.map_eq_some_iff.1 h
    have hp : e.1 = p := by simpa using List.find?_some he
    rw [← hp]
    exact List.mem_of_find?_eq_some he
  · intro h
    have hmem : p ∈ d.paths := List.mem_map.2 ⟨_, h, rfl⟩
    obtain ⟨n', hn'⟩ := Option.ne_none_iff_exists'.1 (mt get?_eq_none.1 (not_not_intro hmem))
    obtain ⟨e, he, rfl⟩ := Option.map_eq_some_iff.1 hn'
    have hp : e.1 = p := by simpa using List.find?_some he
    have heq := List.inj_on_of_nodup_map hd (List.mem_of_find?_eq_some he) h hp
    rw [hn', heq]

/-- The same disk, with its entries listed in some other order. -/
def Relists (d' d : Disk) : Prop := d'.entries.Perm d.entries

theorem Relists.get?_eq (h : d'.Relists d) (hd : d.paths.Nodup) : d'.get? = d.get? := by
  have hd' : d'.paths.Nodup := (h.map Prod.fst).nodup_iff.2 hd
  funext p
  refine Option.ext fun n => ?_
  rw [get?_eq_some_iff hd', get?_eq_some_iff hd]
  exact h.mem_iff

end Disk

end Tessera
