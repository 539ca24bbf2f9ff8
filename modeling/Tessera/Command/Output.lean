import Tessera.Disk
/-!
# What a run reads and writes

`collect` (`_collect_files`) lists the pictures of a folder that a run works on, by name without regard to case. What
an earlier run has written is not among them: the stem of such a name ends in the mark that `outputPath`
(`output_path_for`) sets.
-/

namespace Tessera

/-- The mark at the end of the stem of what a run writes. -/
def outputMark : FileName := "_tiles".toList

/-- The suffix of what a run writes: with a table or without. -/
def outputSuffix (indexed : Bool) : FileName := if indexed then ".bmp".toList else ".png".toList

/-- Where the outcome for a picture is written: in the given folder, or else beside the picture (`output_path_for`). -/
def outputPath (src : Path) (folder? : Option Path) (indexed : Bool) : Path :=
  (folder?.getD src.parent).child (src.stem ++ outputMark ++ outputSuffix indexed)

def pictureSuffixes : List FileName :=
  [".png", ".bmp", ".gif", ".jpg", ".jpeg", ".webp", ".tif", ".tiff"].map String.toList

/-- Whether a name is that of a picture to work on. -/
def FileName.isInput (n : FileName) : Bool :=
  pictureSuffixes.contains (Text.lower n.suffix) && !outputMark.isSuffixOf n.stem

namespace Disk

/-- Whether a run works on a path (`is_image_file`). -/
def isInput (d : Disk) (p : Path) : Bool := p.name.isInput && (d.scan? (d.follow p)).isSome

/-- Whether a name comes before another or is the same, without regard to case. -/
def nameLe (p q : Path) : Bool := FileName.le (Text.lower p.name) (Text.lower q.name)

/-- The pictures of a folder that a run works on (`_collect_files`). -/
def collect (d : Disk) (folder : Path) : List Path :=
  match d.resolve folder with
  | .ok (some q) => (((d.children q).filter d.isInput).mergeSort nameLe).map fun p => folder.child p.name
  | _ => []

end Disk

end Tessera
