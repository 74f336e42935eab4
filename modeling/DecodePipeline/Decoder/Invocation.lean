import DecodePipeline.Frame
import DecodePipeline.Path
import DecodePipeline.WorkItem

/-!
How the external decoder is called: with the stream, the decode options in their order, and a template
for the names of the frames, in that order. Every item has an output directory of its own.
-/

namespace DecodePipeline

structure Decoder where
  program : String
  outputRoot : String
  options : List String := []
  expectedFrames : Option Nat := none
  cleanupPatterns : List String := []
  deriving DecidableEq, Repr

namespace Decoder

def name : String := "decoder"

def itemDirectory (d : Decoder) (id : String) : String :=
  Path.join d.outputRoot id

/-- Where the frames of an item go, with a placeholder for their index. -/
def outputTemplate (d : Decoder) (id : String) : String :=
  Path.join (d.itemDirectory id) (Frame.template id)

def arguments (d : Decoder) (item : WorkItem) : List String :=
  ["--compressedStreamPath=" ++ item.source] ++ d.options ++
    ["--reconstructedDataPath=" ++ d.outputTemplate item.id]

end Decoder

end DecodePipeline
