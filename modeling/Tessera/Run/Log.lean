import Tessera.Learn.Note
import Tessera.Run.Basic
/-!
# The log of a run

The lines that a run writes for those who look inside. All durations are given from outside.
-/

namespace Tessera

/-- What the log shows besides the notes: the settings, the number of workers and the durations. -/
structure LogFrame where
  settings : Settings Float
  workers : Value
  duration : String

namespace Note

def text? (f : LogFrame) : Note Float → Option String
  | .sizes width height tiles samples block =>
    let s := f.settings
    some (Report.configuration "quantize" [
      ("Size", .text (toString width ++ "x" ++ toString height)),
      ("Tile", .text (toString s.tileWidth ++ "x" ++ toString s.tileHeight)), ("Tiles", .int tiles),
      ("Palettes", .int s.numPalettes), ("Colours", .int s.colorsPerPalette), ("Bits", .int s.bitsPerChannel),
      ("Dither", .text s.dither.name), ("Colour zero", .text s.colorZero.name), ("Samples", .int samples),
      ("Block", .int block), ("Workers", f.workers)])
  | .moment m => m.text?
  | .grown slots rejected =>
    some ("grow done  slots: " ++ toString slots ++ "  rejected settles: " ++ toString rejected ++ "  time: " ++ f.duration)
  | .replaced counts best =>
    some ("replace done  colours: " ++ toString counts.colors ++ "  palettes: " ++ toString counts.palettes ++
      "  best: " ++ Decimal.fixed 0 best)
  | .stopped percent stage =>
    some ("cancelled at " ++ Decimal.fixed 1 percent ++ "% (" ++ stage.name ++ ")")
  | .finished mse best =>
    some ("MSE: " ++ Decimal.fixed 2 mse ++ "  best checkpoint: " ++ Decimal.fixed 2 best ++ "  (tiles=" ++ f.duration ++
      ", refine=" ++ f.duration ++ ", finish=" ++ f.duration ++ ")")

end Note

def Journal.log (j : Journal Float) (f : LogFrame) : String :=
  String.join ((j.notes.filterMap (Note.text? f)).map Report.debugLine)

end Tessera
