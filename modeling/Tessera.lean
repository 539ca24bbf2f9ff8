import Tessera.Buffer
import Tessera.Cluster.Basic
import Tessera.Cluster.Lloyd
import Tessera.Cluster.Repair
import Tessera.Cluster.Seed
import Tessera.ColorZero
import Tessera.Command.Arguments
import Tessera.Command.Flag
import Tessera.Command.Output
import Tessera.Command.Run
import Tessera.Composition.Basic
import Tessera.Composition.Compose
import Tessera.Composition.Sheet
import Tessera.Decimal.Basic
import Tessera.Decimal.Nearest
import Tessera.Decimal.Read
import Tessera.Decimal.Shortest
import Tessera.Depth
import Tessera.Disk
import Tessera.Dither.Lookup
import Tessera.Dither.Pattern
import Tessera.Error
import Tessera.Fit.Cache
import Tessera.Fit.Distance
import Tessera.Fit.Error
import Tessera.Fit.Residual
import Tessera.Hex
import Tessera.Image
import Tessera.Learn.Learner
import Tessera.Learn.Move
import Tessera.Learn.Note
import Tessera.Learn.Phase
import Tessera.Learn.Reseed
import Tessera.Learn.Schedule
import Tessera.Level
import Tessera.Main
import Tessera.Mix
import Tessera.Number
import Tessera.Order.Generator
import Tessera.Order.Shuffler
import Tessera.Order.Source
import Tessera.Order.Walks
import Tessera.Palette.Board
import Tessera.Palette.Set
import Tessera.Path
import Tessera.Pick
import Tessera.Picture.Basic
import Tessera.Picture.Bitmap
import Tessera.Picture.Boxes
import Tessera.Picture.File
import Tessera.Picture.Format
import Tessera.Picture.Orientation
import Tessera.Picture.Png
import Tessera.Picture.Save
import Tessera.Proofs.Cache
import Tessera.Proofs.Choice
import Tessera.Proofs.ColorZero
import Tessera.Proofs.Composition
import Tessera.Proofs.Exact
import Tessera.Proofs.Fit
import Tessera.Proofs.Optimal
import Tessera.Proofs.Palettes
import Tessera.Proofs.Rasters
import Tessera.Proofs.Run
import Tessera.Proofs.Settings
import Tessera.Proofs.Steps
import Tessera.Proofs.WellFormed
import Tessera.Raster
import Tessera.Report
import Tessera.Rgb
import Tessera.Run.Basic
import Tessera.Run.Journal
import Tessera.Run.Log
import Tessera.Run.Quantize
import Tessera.Scalar
import Tessera.Settings.Basic
import Tessera.Settings.Draft
import Tessera.Settings.Field
import Tessera.Span
import Tessera.Start
import Tessera.Table
import Tessera.Tensor
import Tessera.Tensor.Index
import Tessera.Tensor.Kind
import Tessera.Text.Blank
import Tessera.Text.Case
import Tessera.Text.Digit
import Tessera.Text.Half
import Tessera.Text.Lower
import Tessera.Text.Printable
import Tessera.Text.Quoted
import Tessera.Text.Template
import Tessera.Tile.Basic
import Tessera.Tile.Canvas
import Tessera.Tile.Set
import Tessera.Tiling
import Tessera.Value
import Tessera.Value.Read
import Tessera.Workbench.Basic
import Tessera.Workbench.Change
import Tessera.Workbench.Learn
import Tessera.Workbench.Look
import Tessera.Proofs.Rendering
import Tessera.Proofs.Levels
import Tessera.Proofs.Residuals
import Tessera.Proofs.Correction
import Tessera.Proofs.Extension
import Tessera.Proofs.Growth
import Tessera.Proofs.Mixes
import Tessera.Proofs.Crowding
import Tessera.Proofs.Shuffling
import Tessera.Proofs.Acts
import Tessera.Proofs.Script
import Tessera.Proofs.Cancelling
import Tessera.Proofs.Schedules
import Tessera.Proofs.Floats
import Tessera.Proofs.Budget
import Tessera.Proofs.Tracking
import Tessera.Proofs.Rounding
import Tessera.Proofs.Ceilings
import Tessera.Proofs.Blocks
import Tessera.Proofs.BitDepth
import Tessera.Proofs.Walks
import Tessera.Proofs.Cube
import Tessera.Proofs.Files
import Tessera.Proofs.Saving
import Tessera.Proofs.Extraction
import Tessera.Proofs.Agreement
import Tessera.Proofs.Progress
import Tessera.Proofs.Guards
import Tessera.Proofs.GuardedLearning
import Tessera.Proofs.GuardedPalettes
import Tessera.Proofs.GuardedRun
import Tessera.Proofs.Magnitudes
import Tessera.Proofs.Refusals
import Tessera.Proofs.Nearness
import Tessera.Proofs.Search
import Tessera.Proofs.Mixable
import Tessera.Proofs.Windows
import Tessera.Proofs.Removal
import Tessera.Proofs.Spans
import Tessera.Proofs.Padding
import Tessera.Proofs.WeakColors
import Tessera.Proofs.WeakPalettes
import Tessera.Proofs.Signs
import Tessera.Proofs.Tilings
import Tessera.Proofs.Repair
import Tessera.Proofs.HexGrammar
import Tessera.Proofs.Seeding
import Tessera.Proofs.Snapping
import Tessera.Proofs.Checking
import Tessera.Proofs.Disks
import Tessera.Proofs.Folders
