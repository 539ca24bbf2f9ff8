import Tessera.Error
/-!
# The fields of the settings

Seventeen named fields. A bounded field holds a number within closed bounds; a field of a family holds one of
its members; two fields hold a colour.
-/

namespace Tessera

/-- Names of the settings (`FIELD_INFO`). -/
inductive Field where
  | tileWidth
  | tileHeight
  | numPalettes
  | colorsPerPalette
  | bitsPerChannel
  | fractionOfPixels
  | ditherWeight
  | dither
  | ditherPattern
  | colorZero
  | sharedColor
  | transparentColor
  | alpha
  | finalAlpha
  | minColorFactor
  | minPaletteFactor
  | replaceIterations
deriving DecidableEq, Repr, Inhabited

namespace Field

/-- The fields in the order in which they are listed and checked. -/
def all : List Field :=
  [tileWidth, tileHeight, numPalettes, colorsPerPalette, bitsPerChannel, fractionOfPixels, ditherWeight,
   dither, ditherPattern, colorZero, sharedColor, transparentColor, alpha, finalAlpha, minColorFactor,
   minPaletteFactor, replaceIterations]

def name : Field → String
  | tileWidth => "tile_width"
  | tileHeight => "tile_height"
  | numPalettes => "num_palettes"
  | colorsPerPalette => "colors_per_palette"
  | bitsPerChannel => "bits_per_channel"
  | fractionOfPixels => "fraction_of_pixels"
  | ditherWeight => "dither_weight"
  | dither => "dither"
  | ditherPattern => "dither_pattern"
  | colorZero => "color_zero"
  | sharedColor => "shared_color"
  | transparentColor => "transparent_color"
  | alpha => "alpha"
  | finalAlpha => "final_alpha"
  | minColorFactor => "min_color_factor"
  | minPaletteFactor => "min_palette_factor"
  | replaceIterations => "replace_iterations"

def ofName? (s : String) : Option Field := all.find? fun f => f.name == s

def description : Field → String
  | tileWidth => "Tile width in pixels."
  | tileHeight => "Tile height in pixels."
  | numPalettes => "Number of palettes."
  | colorsPerPalette => "Colours per palette, including colour zero."
  | bitsPerChannel => "Output bits per RGB channel."
  | fractionOfPixels => "Samples per refinement block as a fraction of the pixel count."
  | ditherWeight => "How readily distant colour pairs are mixed when dithering."
  | dither => "Ordered dithering mode."
  | ditherPattern => "2x2 ordered dither pattern."
  | colorZero => "Meaning of palette index zero."
  | sharedColor => "Initial shared colour zero (hex)."
  | transparentColor => "Colour zero for the transparent policies (hex)."
  | alpha => "Initial learning rate."
  | finalAlpha => "Learning rate at the end of the run."
  | minColorFactor => "Colours below this share of their palette's mean contribution are replaced."
  | minPaletteFactor => "Palettes below this share of the mean palette contribution are reseeded."
  | replaceIterations => "Refinement blocks with weak-colour replacement."

def default : Field → Value
  | tileWidth => .int 8
  | tileHeight => .int 8
  | numPalettes => .int 8
  | colorsPerPalette => .int 4
  | bitsPerChannel => .int 5
  | fractionOfPixels => .float 0.1
  | ditherWeight => .float 0.5
  | dither => .mode .off
  | ditherPattern => .pattern .diagonal4
  | colorZero => .zero .unique
  | sharedColor => .text "#000000"
  | transparentColor => .text "#000000"
  | alpha => .float 0.3
  | finalAlpha => .float 0.05
  | minColorFactor => .float 0.5
  | minPaletteFactor => .float 0.5
  | replaceIterations => .int 10

/-- The value of a field that is not given. The learning rates are then left to the dither mode. -/
def initial : Field → Value
  | alpha => .null
  | finalAlpha => .null
  | f => f.default

def bounds? : Field → Option (Value × Value)
  | tileWidth => some (.int 1, .int 32)
  | tileHeight => some (.int 1, .int 32)
  | numPalettes => some (.int 1, .int 16)
  | colorsPerPalette => some (.int 2, .int 256)
  | bitsPerChannel => some (.int 2, .int 8)
  | fractionOfPixels => some (.float 0.01, .float 10.0)
  | ditherWeight => some (.float 0.01, .float 1.0)
  | alpha => some (.float 0.0, .float 1.0)
  | finalAlpha => some (.float 0.0, .float 1.0)
  | minColorFactor => some (.float 0.0, .float 1.0)
  | minPaletteFactor => some (.float 0.0, .float 1.0)
  | replaceIterations => some (.int 1, .int 1000)
  | _ => none

/-- Whether a bounded field takes integers only. -/
def isWhole (f : Field) : Bool :=
  match f.default with
  | .int _ => true
  | _ => false

end Field

end Tessera
