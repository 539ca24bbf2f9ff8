import Tessera.Command.Arguments
import Tessera.Command.Run
import Tessera.Picture.Bitmap
import Tessera.Picture.Png
/-!
# The command line

Reads what a command names, runs the command, writes its outcomes and tells what happened. Pictures are read from
bitmap files.
-/

namespace Tessera.Command

def readNode (place : String) : IO Node := do
  let bytes ← IO.FS.readBinFile place
  pure (.file ((Bitmap.decode? bytes).map fun p => ⟨p, 1⟩))

/-- Adds what stands at a place of the real disk. -/
def readInto (d : Disk) (p : Path) : IO Disk := do
  let node ← try readNode p.text catch _ => pure .folder
  pure (((d.makeFolder p.parent).toOption.getD d).put p node)

/-- The part of the real disk that a command works on. -/
def readDisk (p : Path) : IO Disk := do
  try
    let place ← IO.FS.realPath p.text
    if ← place.isDir then
      let entries ← place.readDir
      let disk := (Disk.makeFolder ⟨[]⟩ p).toOption.getD ⟨[]⟩
      entries.toList.foldlM (fun d e => readInto d (p.child e.fileName.toList)) disk
    else readInto ⟨[]⟩ p
  catch _ => pure ⟨[]⟩

def writePicture (p : Path) (picture : Picture) : IO Unit := do
  let bytes := match picture with
    | .indexed indices table => Bitmap.encode indices table
    | p => Png.encode p.pixels
  IO.FS.createDirAll p.parent.text
  IO.FS.writeBinFile p.text (ByteArray.mk bytes.toArray)

def durationMark : String := "\x00"

def durationText (ms : Nat) : String :=
  (Report.totalDuration (.real (Float.ofNat ms / 1000.0))).toOption.getD ""

/-- The line about one flag in the call for help. -/
def helpLine (f : Flag) : String :=
  match f with
  | .field h => "  " ++ f.name ++ "  " ++ h.description
  | _ => "  " ++ f.name

def helpText : String :=
  "usage: " ++ program ++ " [options] src\n\n" ++ "\n".intercalate (Flag.all.map helpLine) ++ "\n"

def newSeeds (d : Disk) : IO Entropy := do
  let seeds ← d.entries.mapM fun e => do pure (e.1, ← IO.rand 0 (Nat.pow 2 31))
  pure ⟨fun p => ((seeds.find? fun e => e.1 = p).map Prod.snd).getD 0⟩

def perform (o : Options) : IO UInt32 := do
  let disk ← readDisk o.src
  let entropy ← newSeeds disk
  let start ← IO.monoMsNow
  match StateT.run (run ⟨.null, entropy, durationMark⟩ o) ⟨disk, [], "", ""⟩ with
  | .error e =>
    IO.eprintln (e.message?.getD "the command could not be carried out")
    pure 1
  | .ok (status, desk) =>
    desk.written.forM fun (p, picture) => writePicture p picture
    let stop ← IO.monoMsNow
    IO.print (desk.out.replace durationMark (durationText (stop - start)))
    IO.eprint desk.err
    pure status.toUInt32

end Tessera.Command

def main (args : List String) : IO UInt32 := do
  let workers := (Tessera.Command.defaultWorkers .null).toOption.getD (.int 1)
  match Tessera.Command.Options.ofArguments workers args with
  | .ok o => Tessera.Command.perform o
  | .error .help =>
    IO.print Tessera.Command.helpText
    pure 0
  | .error (.refused r) =>
    IO.eprintln r.line
    pure 2
