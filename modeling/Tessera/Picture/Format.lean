import Tessera.Error
import Tessera.Path
import Tessera.Picture.Basic
/-!
# File formats

The ending of a name says in which format a picture is written. Formats differ in the pictures that they hold: some
have no table of colours, some have nothing else, some have no alpha. A format also says whether its files can be read
back, and whether they tell how the picture is to be turned.
-/

namespace Tessera

/-- The formats that names tell. -/
inductive Format where
  | png
  | ico
  | tiff
  | bmp
  | gif
  | tga
  | pcx
  | im
  | sgi
  | ppm
  | jpeg
  | webp
  | eps
  | palm
  | pdf
  | blp
  | dds
  | jp2
  | qoi
  /-- Formats of nothing but bits. -/
  | bilevel
  /-- Formats for which another program is needed. -/
  | foreign
  /-- Formats that can only be read. -/
  | readOnly
deriving DecidableEq, Repr, Inhabited

/-- The suffix of the format in which the alpha of a table is written. -/
def alphaSuffix : FileName := ".png".toList

namespace Format

def all : List Format :=
  [png, ico, tiff, bmp, gif, tga, pcx, im, sgi, ppm, jpeg, webp, eps, palm, pdf, blp, dds, jp2, qoi, bilevel, foreign,
    readOnly]

def endings : Format → List String
  | png => [".png", ".apng"]
  | ico => [".ico"]
  | tiff => [".tif", ".tiff"]
  | bmp => [".bmp", ".dib"]
  | gif => [".gif"]
  | tga => [".tga", ".icb", ".vda", ".vst"]
  | pcx => [".pcx"]
  | im => [".im"]
  | sgi => [".sgi", ".rgb", ".rgba", ".bw"]
  | ppm => [".ppm", ".pgm", ".pbm", ".pnm", ".pfm"]
  | jpeg => [".jpg", ".jpeg", ".jpe", ".jfif", ".mpo"]
  | webp => [".webp", ".avif", ".avifs", ".icns"]
  | eps => [".eps", ".ps"]
  | palm => [".palm"]
  | pdf => [".pdf"]
  | blp => [".blp"]
  | dds => [".dds"]
  | jp2 => [".jp2", ".j2k", ".jpc", ".jpf", ".jpx", ".j2c"]
  | qoi => [".qoi"]
  | bilevel => [".xbm", ".msp"]
  | foreign => [".bufr", ".grib", ".h5", ".hdf", ".wmf", ".emf"]
  | readOnly =>
    [".psd", ".cur", ".dcx", ".fit", ".fits", ".fli", ".flc", ".ftc", ".ftu", ".gbr", ".iim", ".mpg", ".mpeg", ".pcd",
      ".pxr", ".ras", ".xpm"]

def ofName? (n : FileName) : Option Format :=
  let s := String.ofList (Text.lower n.ending)
  all.find? fun f => f.endings.contains s

def forWriting (n : FileName) : Result Format :=
  match ofName? n with
  | none => refuse .format
  | some .readOnly => refuse .unknown
  | some f => pure f

/-- Whether a format holds pictures of some channels, or with a table. -/
def holds (f : Format) (channels? : Option Channels) : Bool :=
  match f with
  | bmp => channels? != some .greyAlpha
  | pcx => [none, some .grey, some .color].contains channels?
  | sgi => [some .grey, some .color, some .colorAlpha].contains channels?
  | ppm => [some .grey, some .color, some .colorAlpha].contains channels?
  | jpeg => [some .grey, some .color].contains channels?
  | eps => [some .grey, some .color].contains channels?
  | palm => channels? == none
  | blp => channels? == none
  | dds => channels? != none
  | jp2 => channels? != none
  | qoi => [some .color, some .colorAlpha].contains channels?
  | bilevel => false
  | foreign => false
  | readOnly => false
  | _ => true

/-- How a format refuses what it does not hold. -/
def refusal : Format → Fault
  | pcx => .format
  | sgi => .format
  | eps => .format
  | blp => .format
  | qoi => .format
  | _ => .unheld

/-- Whether files of a format can be read back. -/
def isReadable : Format → Bool
  | eps => false
  | palm => false
  | pdf => false
  | _ => true

/-- Whether files of a format tell how the picture is to be turned. -/
def isOriented : Format → Bool
  | png => true
  | tiff => true
  | jpeg => true
  | webp => true
  | _ => false

/-- The letters of a name that a format writes into the file. -/
def writtenName (f : Format) (n : FileName) : FileName :=
  match f with
  | im => (n.take (n.length - n.ending.length)).take (92 - n.ending.length) ++ n.ending
  | _ => []

/-- Whether a format can write a name into the file. -/
def canName (f : Format) (n : FileName) : Bool := (f.writtenName n).all fun c => decide (c.toNat < 128)

end Format

end Tessera
