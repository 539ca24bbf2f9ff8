import Tessera.Fit.Residual
import Tessera.Tensor.Kind
/-!
# Reseeding what contributes little

The contribution of a colour (`color_contributions`) is what the error of its palette would gain without it. The
contribution of a palette is what the error of the image would gain if its tiles went to their second-best palettes. A
colour or palette far below the mean of its peers is put where the fit is worst (`replace`). A shared colour is judged
by the sum of what it contributes to all palettes.
-/

namespace Tessera

/-- How many colours and palettes have been reseeded. -/
structure Reseeds where
  colors : Nat
  palettes : Nat
deriving DecidableEq, Repr, Inhabited

/-- Units below this share of the mean of their peers are reseeded. -/
structure ReseedRule (α : Type) where
  colorFactor : α
  paletteFactor : α

namespace Reseed

variable {α : Type} [Scalar α]

abbrev Residuals (α : Type) := List (Entry × Residual α)

/-- The entries of a tile set with their residuals under an assignment. -/
@[specialize] def residuals (ts : TileSet) (s : PaletteSet α) (assignment : List Nat) : Residuals α :=
  ts.entries.zip (Residual.all ts s assignment)

/-! ## Contributions -/

/-- What an entry adds to the contribution of its slot. -/
@[inline] def gap (e : Entry) (r : Residual α) : α :=
  match r.second with
  | some d => if Scalar.isFinite d then (d - r.error) * Scalar.ofNat e.count else Scalar.ofNat 0
  | none => Scalar.ofNat 0

@[specialize] def contribution (rs : Residuals α) (p slot : Nat) : α :=
  Scalar.sum ((rs.filter fun (_, r) => r.palette == p && r.slot == slot).map fun (e, r) => gap e r)

/-- The contribution of every slot of every palette (`color_contributions`). -/
@[specialize] def contributions (s : PaletteSet α) (rs : Residuals α) : List (List α) :=
  (List.range s.size).map fun p => (List.range s.slots).map fun k => contribution rs p k

/-! ## Seeds -/

/-- Keeps the first of equal colours, and none of those taken. -/
def distinctFrom (taken : List (Rgb UInt8)) : List (Rgb UInt8) → List (Rgb UInt8)
  | [] => []
  | c :: cs => if taken.contains c then distinctFrom taken cs else c :: distinctFrom (c :: taken) cs

/-- The distinct colours that are not met exactly, of one palette's tiles or of all, the greatest weighted error first
(`_worst_entries`). -/
@[specialize] def worst (rs : Residuals α) (palette : Option Int) (taken : List (Rgb UInt8)) : List (Rgb UInt8) :=
  let missed := rs.filter fun (_, r) =>
    decide (Scalar.ofNat 0 < r.error) && (palette.isNone || palette == some (r.palette : Int))
  let scored := missed.map fun (e, r) => (r.error * Scalar.ofNat e.count, e.color)
  distinctFrom taken ((scored.mergeSort fun a b => Pick.descends a.1 b.1).map Prod.snd)

/-! ## Colours -/

/-- Palettes under change, and the counts so far. -/
structure Changed (α : Type) where
  set : PaletteSet α
  counts : Reseeds

@[inline] def put (x : Changed α) (p slot : Nat) (c : Rgb UInt8) : Changed α :=
  ⟨x.set.setColor p slot (Rgb.ofBytes c), { x.counts with colors := x.counts.colors + 1 }⟩

/-- Reseeds the shared slot when it contributes little, and tells the colour (`_replace_shared`). -/
@[specialize] def reseedShared (factor : α) (rs : Residuals α) (contrib : List (List α)) (x : Changed α) :
    Changed α × List (Rgb UInt8) :=
  let column (columns k : Nat) : α := Scalar.columnSum columns (contrib.map fun row => row.getD k (Scalar.ofNat 0))
  let width := x.set.slots - 1
  let others := (List.range' 1 width).map (column width)
  if others.isEmpty then (x, [])
  else
    let mean := Scalar.mean others
    if mean ≤ Scalar.ofNat 0 ∨ factor * mean ≤ column 1 0 then (x, [])
    else
      match worst rs none [] with
      | [] => (x, [])
      | c :: _ => (put x 0 0 c, [c])

/-- The slots of a palette that contribute little, the least first. -/
@[specialize] def weakSlots (factor : α) (first : Nat) (row : List α) : List Nat :=
  let own := row.drop first
  let mean := Scalar.mean own
  if mean ≤ Scalar.ofNat 0 then []
  else
    let weak := own.zipIdx.filter fun (v, _) => decide (v < factor * mean)
    (weak.mergeSort fun a b => Pick.ascends a.1 b.1).map fun (_, k) => first + k

@[specialize] def reseedPalette (factor : α) (rs : Residuals α) (contrib : List (List α)) (taken : List (Rgb UInt8))
    (x : Changed α) (p : Nat) : Changed α :=
  match weakSlots factor x.set.firstFree (contrib.getD p []) with
  | [] => x
  | weak => (weak.zip (worst rs (some (p : Int)) taken)).foldl (fun x (slot, c) => put x p slot c) x

/-- Reseeds the weak colours of all palettes (`_replace_colors`). -/
@[specialize] def reseedColors (factor : α) (ts : TileSet) (assignment : List Nat) (x : Changed α) : Changed α :=
  let few := x.set.slots - x.set.firstFree < 2
  let shared := x.set.zero == .shared
  if few && !shared then x
  else
    let rs := residuals ts x.set assignment
    let contrib := contributions x.set rs
    let (x, taken) := if shared then reseedShared factor rs contrib x else (x, [])
    if few then x else (List.range x.set.size).foldl (reseedPalette factor rs contrib taken) x

/-! ## Palettes -/

/-- What the error of a tile gains when it cannot have its palette. -/
@[specialize] def moveCost (row : List α) (p : Nat) : α :=
  match Pick.least? (row.eraseIdx p) with
  | some (_, second) =>
    if Scalar.isFinite second then second - row.getD p (Scalar.ofNat 0) else Scalar.ofNat 0
  | none => Scalar.ofNat 0

@[specialize] def paletteContributions (size : Nat) (errors : List (List α)) (assignment : List Nat) : List α :=
  (List.range size).map fun p =>
    Scalar.sum (((errors.zip assignment).filter fun (_, q) => q == p).map fun (row, q) => moveCost row q)

/-- The error of the tiles outside a palette; the others count as less than none. -/
@[specialize] def outsideErrors (errors : List (List α)) (assignment : List Nat) (p : Nat) : List α :=
  (errors.zip assignment).map fun (row, q) => if q != p then row.getD q (Scalar.ofNat 0) else Scalar.ofInt (-1)

/-- The colours of a tile, the most frequent first. -/
def byFrequency (t : Tile) : List (Rgb UInt8) :=
  (t.histogram.mergeSort fun a b => decide (b.2 ≤ a.2)).map Prod.fst

/-- Fills the free slots of a palette with colours in turn. -/
@[specialize] def fillPalette (s : PaletteSet α) (p : Nat) (colors : List (Rgb UInt8)) : PaletteSet α :=
  (List.range (s.slots - s.firstFree)).foldl
    (fun s i =>
      match colors[i % colors.length]? with
      | some c => s.setColor p (s.firstFree + i) (Rgb.ofBytes c)
      | none => s)
    s

/-- The palette to reseed and the tile to take its colours from. -/
@[specialize] def weakPalette (factor : α) (size : Nat) (errors : List (List α)) (assignment : List Nat) :
    Option (Nat × Nat) :=
  let contrib := paletteContributions size errors assignment
  let mean := Scalar.mean contrib
  match Pick.least? contrib with
  | none => none
  | some (weakest, least) =>
    if mean ≤ Scalar.ofNat 0 ∨ factor * mean ≤ least then none
    else
      match Pick.greatest? (outsideErrors errors assignment weakest) with
      | none => none
      | some (tile, e) => if e ≤ Scalar.ofNat 0 then none else some (weakest, tile)

/-- Reseeds the weakest palette from the tile that fits worst outside it (`_replace_palette`). -/
@[specialize] def reseedWeakest (factor : α) (ts : TileSet) (errors : List (List α)) (assignment : List Nat)
    (x : Changed α) : Changed α :=
  match weakPalette factor x.set.size errors assignment with
  | none => x
  | some (p, t) =>
    match ts.tiles[t]? with
    | none => x
    | some tile =>
      ⟨fillPalette x.set p (byFrequency tile), { x.counts with palettes := x.counts.palettes + 1 }⟩

/-- Reseeds weak colours and then the weakest palette (`WeakColorReplacer.replace`). The palettes are judged as they were
before. -/
@[specialize] def replace (rule : ReseedRule α) (ts : TileSet) (x : Changed α) : Changed α :=
  if ts.entries.isEmpty then x
  else
    let errors := Fit.errors none ts x.set
    let assignment := errors.map fun row => (Fit.choose row).1
    let size := x.set.size
    let x := reseedColors rule.colorFactor ts assignment x
    if 1 < size then reseedWeakest rule.paletteFactor ts errors assignment x else x

/-! ## Checked uses -/

/-- Refuses to judge no palettes when there is an entry, and a shared colour where palettes have none. -/
def check (ts : TileSet) (s : PaletteSet α) : Result Unit :=
  if ts.entries.isEmpty then pure ()
  else if s.size = 0 then refuse .choice
  else if s.zero = .shared ∧ s.slots = 0 then refuse .position
  else pure ()

def ruleOf (colorFactor paletteFactor : Value) : Result (ReseedRule Float) := do
  let color ← colorFactor.real
  let palette ← paletteFactor.real
  pure ⟨color, palette⟩

def defaultFactor : Float := 0.5

/-- Whether a value is the number of a palette. -/
def namesPalette (v : Value) (p : Nat) : Bool :=
  match Number.ofValue v with
  | .ok n => n.eq (.whole p)
  | .error _ => false

/-- The entries of the palette that a value names: all when it is missing. A list names a palette for each entry, or one for
all; a list of texts names none. -/
def ofPalette (rs : Residuals α) : Value → Result (Residuals α)
  | .null => pure rs
  | v => do
    let names ← Tensor.ofValue pure v
    match names.spreadTo? [rs.length] with
    | none => refuse .shape
    | some each =>
      let kept := (rs.zip each.data.toList).filter fun ((_, r), v) => namesPalette v r.palette
      pure (if Kind.ofTensor names = .text then [] else kept.map Prod.fst)

def byteOf? (x : Float) : Option UInt8 := if x == x.toUInt8.toFloat then some x.toUInt8 else none

/-- The byte colour that numbers are equal to. -/
def colorOf? : List Float → Option (Rgb UInt8)
  | [r, g, b] => do pure ⟨← byteOf? r, ← byteOf? g, ← byteOf? b⟩
  | _ => none

/-- The colours to leave out by a value that lists them. What is equal to no colour leaves none out. -/
def takenOf (v : Value) : Result (List (Rgb UInt8)) := do
  let colors ← (← v.parts).mapM fun c => do (← c.parts).mapM Value.real
  pure (colors.filterMap colorOf?)

end Reseed

end Tessera
