import Tessera.Command.Flag
import Tessera.Command.Output
import Tessera.Picture.Save
import Tessera.Run.Quantize
/-!
# Running a command

A command (`main`) works on one picture or on all pictures of a folder. It tells what it does, writes its outcomes to
the disk, and ends with a status. What lies in the pictures or the settings is told to the user, and in a folder the
other pictures still get their turn. Anything else ends the run.

The disk is a value here, and so are the two texts that a run writes.
-/

namespace Tessera

/-- The text of a cause that lies in what the user gave. -/
def Error.told? : Error → Option String
  | .paletteShape _ => none
  | .noSamples => none
  | .tooManyColours _ => none
  | e => e.message?

namespace Command

/-- Seeds for the pictures of a run that is given none, a new one for each picture. -/
structure Entropy where
  seedFor : Path → Nat

/-- The same seed for all pictures. -/
instance (n : Nat) : OfNat Entropy n := ⟨⟨fun _ => n⟩⟩

/-- What a command cannot know by itself: the number of cores, seeds when none is given, and how long things take. -/
structure Surroundings where
  cores : Cores
  entropy : Entropy
  duration : String

/-- The disk, what has been written to it, and what has been told. -/
structure Desk where
  disk : Disk
  written : List (Path × Picture)
  out : String
  err : String

abbrev Shell := StateT Desk Result

namespace Shell

def say (s : String) : Shell Unit := do
  let shown ← Report.shown s
  modify fun d => { d with out := d.out ++ shown }

def complain (s : String) : Shell Unit := do
  let shown ← Report.shown (Report.failure s)
  modify fun d => { d with err := d.err ++ shown }

/-- Saves a composition, with the folder that it goes to, and tells the path that is written. -/
def save (c : Composition Float) (p : Path) : Shell Path := do
  let d ← get
  let (disk, path, picture) ← c.save (← d.disk.makeFolder p.parent) p
  set { d with disk, written := d.written ++ [(path, picture)] }
  pure path

end Shell

open Shell

def sizeText (width height : Nat) : String := toString width ++ "x" ++ toString height

/-- The line about the command and its settings. -/
def runLine (env : Surroundings) (o : Options) (s : Settings Float) : String :=
  Report.line (Report.configuration "run" [
    ("CPU cores", env.cores.orElse 1), ("Workers", o.workers), ("Jobs", o.jobsValue),
    ("Tile", .text (sizeText s.tileWidth s.tileHeight)), ("Palettes", .int s.numPalettes),
    ("Colours", .int s.colorsPerPalette), ("Bits", .int s.bitsPerChannel), ("Dither", .text s.dither.name)])

def loadedLine (o : Options) (rows : List (List Pixel)) (width height : Nat) : String :=
  let solid := rows.flatten.countP fun p => decide (Image.alphaThreshold ≤ p.alpha)
  Report.debugLine (Report.summary [
    ("Loaded", .text (sizeText width height)), ("Opaque", .int solid), ("Workers", o.workers)])

/-- The line about a report of the run (`on_progress`). -/
def progressText (e : Event Float) : String :=
  Report.progressLine (Report.padLeft 5 (Decimal.fixed 1 e.percent) ++ "%  " ++ e.stage.name)
    (decide (Float.ofNat Plan.allDone ≤ e.percent))

def usedPalettes (c : Composition Float) : Nat := c.tilePalettes.flatten.eraseDups.length

def outcomeLines (env : Surroundings) (o : Options) (c : Composition Float) (written : Path) : String :=
  let wrote := "Wrote " ++ written.title ++ " | size=" ++ sizeText c.width c.height ++ " | palettes=" ++
    sizeText c.palettes.length c.slots ++ " | used=" ++ toString (usedPalettes c)
  let t := env.duration
  let total :=
    if o.debug then
      Report.debugLine ("Total " ++ t ++ "  (load=" ++ t ++ ", quantize=" ++ t ++ ", save=" ++ t ++ ")")
    else Report.line ("Total time " ++ t)
  Report.line wrote ++ Report.line ("MSE: " ++ Decimal.fixed 2 c.mse) ++ total

def runText (env : Surroundings) (o : Options) (live : Bool) (p : Plan Float) (j : Journal Float) : String :=
  if o.debug then j.log ⟨p.settings, o.workers, env.duration⟩
  else if live then String.join (j.events.map progressText)
  else ""

/-- Works on one picture (`_process_single_image`). The answer is what there is to complain of. -/
def processPicture (env : Surroundings) (o : Options) (live : Bool) (src : Path) : Shell (Option String) := do
  say (Report.banner src.title)
  match (← (← get).disk.find src).bind Node.scan? with
  | none => refuse .picture
  | some scan =>
    let rows := scan.pixels
    let b := scan.load
    if o.debug then say (loadedLine o rows ((rows.head?.map List.length).getD 0) rows.length)
    match o.draft.quantize b (o.seedValue (env.entropy.seedFor src)) o.workers ⟨fun _ _ => false, false⟩ with
    | .error e => e.told?.elim (throw e) fun s => pure (some s)
    | .ok (p, outcome) =>
      let c := outcome.composition
      say (runText env o live p outcome.journal)
      let path ← save c (outputPath src (← o.folder?) c.fitsIndexed)
      say (outcomeLines env o c path)
      pure none

/-- Works on one picture of a folder; a complaint names the picture (`_process_one_captured`). -/
def processInFolder (env : Surroundings) (o : Options) (live : Bool) (src : Path) : Shell Unit := do
  match ← processPicture env o live src with
  | some s => complain (src.title ++ ": " ++ s)
  | none => pure ()

/-- Works on the pictures of a folder. With more than one job none of them tells of its progress. -/
def processFolder (env : Surroundings) (o : Options) : Shell Unit := do
  let files := (← get).disk.collect o.src
  if files.isEmpty then say (Report.warning ("no images in " ++ o.src.text))
  if o.debug then say (Report.debugLine (Report.summary [("Images", .int files.length), ("Jobs", o.jobsValue)]))
  match o.jobs with
  | .one n => files.forM (processInFolder env o (decide (n ≤ 1)))
  | .nothing => refuse .kind

def success : Nat := 0

/-- The status of a command that could not be done. -/
def trouble : Nat := 2

/-- Tells a complaint, if there is one, and gives the status. -/
def statusOf : Option String → Shell Nat
  | none => pure success
  | some s => do
    complain s
    pure trouble

def process (env : Surroundings) (o : Options) (n : Node) : Shell Nat :=
  match n with
  | .folder => do
    processFolder env o
    pure success
  | _ => do statusOf (← processPicture env o true o.src)

/-- Runs a command: what is to be worked on must be there, and the settings must be right (`main`). -/
def run (env : Surroundings) (o : Options) : Shell Nat := do
  match ← (← get).disk.find o.src with
  | none => statusOf (some ("not found: " ++ o.src.text))
  | some n =>
    match o.draft.settings with
    | .error e => e.told?.elim (throw e) fun s => statusOf (some s)
    | .ok s =>
      say (runLine env o s)
      process env o n

end Command

end Tessera
