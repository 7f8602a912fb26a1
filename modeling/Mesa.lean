import Mesa.Format.Description
import Mesa.Format.Translate
import Mesa.Format.Decode
import Mesa.Format.TranslateLaws
import Mesa.Format.Batches
import Mesa.Format.CopyRect
import Mesa.Format.Translate3d
import Mesa.Format.Footprint
import Mesa.Nir.GlslType
import Mesa.Nir.Shader
import Mesa.Nir.RemoveUnused
import Mesa.Nir.RemoveUnusedTwice
import Mesa.Nir.Remap
import Mesa.Nir.Compact
import Mesa.Nir.RemapMasks
import Mesa.Nir.CompactPlace
import Mesa.Nir.CompactRecords
import Mesa.Nir.CompactMoves
import Mesa.Nir.CompactTwice
import Mesa.Nir.CompactLinks
import Mesa.Nir.LinkXfb
import Mesa.Nir.LinkOpt
import Mesa.Nir.LinkOptLaws
import Mesa.Nir.IoLocations
import Mesa.Nir.IoLocationsLaws
import Mesa.Nir.IoLocationsDense
import Mesa.Nir.IoLocationsReads
import Mesa.Nir.LinkedLocations
