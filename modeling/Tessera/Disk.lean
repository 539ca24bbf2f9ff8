import Tessera.Picture.File
/-!
# Disks

A disk holds folders and files under their paths, in the order in which they are listed. Of a file only its picture
matters; a file that is no picture has none. A link is another name of the place that it leads to in the end. So it stands
for a symbolic link and for a hard link, and, where names that differ in case are the same, for the name in another case.

Two dots in a path lead to the folder above. So a path has to be followed through the folders and links that are there, and
`walk` says where it leads. On its way it may meet a name that is too long.
-/

namespace Tessera

/-- What stands under a path. -/
inductive Node where
  | folder
  | file (scan? : Option Scan)
  | link (place : Path)

namespace Node

def isFolder : Node → Bool
  | folder => true
  | _ => false

def isFile : Node → Bool
  | file _ => true
  | _ => false

def isLink : Node → Bool
  | link _ => true
  | _ => false

def scan? : Node → Option Scan
  | file scan? => scan?
  | _ => none

end Node

/-- Folders, files and links under their paths. -/
structure Disk where
  entries : List (Path × Node)

namespace Disk

def get? (d : Disk) (p : Path) : Option Node := (d.entries.find? fun e => e.1 = p).map Prod.snd

def put (d : Disk) (p : Path) (n : Node) : Disk :=
  if d.entries.any fun e => e.1 = p then ⟨d.entries.map fun e => if e.1 = p then (p, n) else e⟩
  else ⟨d.entries ++ [(p, n)]⟩

def children (d : Disk) (folder : Path) : List Path :=
  (d.entries.map Prod.fst).filter fun p => p.names != [] && p.parent = folder

def scan? (d : Disk) (p : Path) : Option Scan := (d.get? p).bind Node.scan?

/-- Whether a folder stands under a path. The folder without a name is always there. -/
def isFolder (d : Disk) (p : Path) : Bool := p.names.isEmpty || (d.get? p).any Node.isFolder

/-- The place that a path of the disk stands for: its own, or the one that a link leads to. -/
def follow (d : Disk) (p : Path) : Path :=
  match d.get? p with
  | some (.link place) => place
  | _ => p

end Disk

def FileName.up : FileName := ['.', '.']

/-- The path that a name leads to from a folder. -/
def Path.step (p : Path) (n : FileName) : Path := if n = FileName.up then p.parent else p.child n

namespace Disk

/-! ## Following paths -/

/-- Where names lead to from a folder, when all folders on the way are there. -/
def walk (d : Disk) : Path → List FileName → Result (Option Path)
  | p, [] => pure (some p)
  | p, n :: ns =>
    if ¬ d.isFolder p then pure none
    else if n.isTooLong then refuse .longName
    else d.walk (d.follow (p.step n)) ns

def resolve (d : Disk) (p : Path) : Result (Option Path) :=
  if p.isTooLong then refuse .longName else d.walk { p with names := [] } p.names

/-- What a path leads to, if there is something. A link that leads to a link leads to nothing. -/
def find (d : Disk) (p : Path) : Result (Option Node) := do
  if p.isImpossible then pure none
  else
    match ← d.resolve p with
    | none => pure none
    | some q => pure (if d.isFolder q then some .folder else (d.get? q).filter Node.isFile)

def checkPossible (p : Path) : Result Unit :=
  if p.isBroken then refuse .letters else if p.isImpossible then refuse .badName else pure ()

/-! ## Making folders and files -/

def ensure (d : Disk) (p : Path) : Disk := if d.isFolder p then d else d.put p .folder

/-- Makes the folders that names lead to from a folder. A link that does not lead to a folder is in the way. -/
def makeFrom (d : Disk) : Path → List FileName → Result Disk
  | _, [] => pure d
  | p, n :: ns =>
    let q := d.follow (p.step n)
    if n.isTooLong then refuse .longName
    else if (d.get? q).any Node.isFile then refuse (if ns.isEmpty then .blocked else .belowFile)
    else if (d.get? (p.step n)).any Node.isLink && !d.isFolder q then refuse .blocked
    else (d.ensure q).makeFrom q ns

/-- Makes a folder and all folders on the way to it. -/
def makeFolder (d : Disk) (p : Path) : Result Disk := do
  checkPossible p
  if p.isTooLong then refuse .longName else d.makeFrom { p with names := [] } p.names

/-- The place at which a file can be written under a path. -/
def place (d : Disk) (p : Path) : Result Path := do
  checkPossible p
  match ← d.resolve p with
  | none => refuse .noWay
  | some q =>
    if d.isFolder q then refuse .isFolder
    else if (d.get? q).any Node.isLink then refuse .noWay
    else pure q

def writeText (d : Disk) (p : Path) : Result Disk := do
  let q ← d.place p
  pure (d.put q (.file none))

/-- Writes a picture in the format of its name, with one index made transparent if the format can. The answer has the picture
that is in the file. -/
def writePicture (d : Disk) (p : Path) (picture : Picture) (clear orientation : Value) :
    Result (Disk × Picture) := do
  let f ← Format.forWriting p.name
  let q ← d.place p
  let stored ← f.store p.name picture clear
  let turned ← f.keptOrientation orientation
  pure (d.put q (.file (f.scan? stored turned)), stored)

/-- Writes the picture of a buffer. With colours its first channel holds indices, and one index may be transparent. -/
def writeBuffer (d : Disk) (p : Path) (b : Buffer) (colors? : Option (List (Rgb UInt8)))
    (clear orientation : Value) : Result Disk := do
  let (d, _) ← match colors? with
    | none => do d.writePicture p (← Picture.ofBuffer b) .null orientation
    | some colors => do
      let indices ← Picture.indicesOf b
      if Picture.maxTable < colors.length then refuse .shape
      else d.writePicture p (.indexed indices (Picture.tableOf colors)) clear orientation
  pure d

end Disk

end Tessera
