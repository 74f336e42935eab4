import DecodePipeline.Decoder.Frames
import DecodePipeline.Decoder.Invocation
import DecodePipeline.Glob.Search
import DecodePipeline.Process.Run

/-!
One attempt to decode an item: the output directory is made and cleared of older frames, the decoder is
run, and the frames it left are counted. Only then are the files removed that match a cleanup pattern.
What the decoder does is a parameter; `decode` runs the program.
-/

namespace DecodePipeline

/-- How an attempt went: the file tree then, how many milliseconds it took, and the frames. -/
structure Attempted where
  tree : FileTree
  elapsed : Nat
  result : Except Fault (List String)

abbrev Effect := FileTree → Completion

namespace Decoder

def invocation (d : Decoder) (item : WorkItem) : Invocation := ⟨d.program, d.arguments item⟩

/-- The number of frames that a fault asks for where none was configured. -/
def leastFrames (d : Decoder) : Nat := d.expectedFrames.getD 1

def discard (cwd : Location) (t : FileTree) (path : String) : FileTree :=
  (t.remove cwd path).toOption.getD t

/-- A cleanup pattern as a pattern for whole paths. -/
def cleanupQuery (dir pattern : String) : String := Glob.escape dir ++ "/" ++ pattern

def cleanUp (d : Decoder) (cwd : Location) (dir : String) (t : FileTree) : FileTree :=
  d.cleanupPatterns.foldl (fun t pattern =>
    ((Glob.paths? t cwd (cleanupQuery dir pattern)).getD []).foldl (discard cwd) t) t

/-- The frames that a decoder which ended well has left, and the tree after cleaning up. -/
def collect (d : Decoder) (cwd : Location) (id : String) (t : FileTree) : FileTree × Except Fault (List String) :=
  let dir := d.itemDirectory id
  match t.framePaths cwd id dir with
  | .error e => (t, .error (.system e))
  | .ok frames =>
    if Frame.countMatches d.expectedFrames frames.length then (d.cleanUp cwd dir t, .ok frames)
    else (t, .error (.outputs dir d.leastFrames frames.length))

/-- The output directory of an item, made if need be and without older frames. -/
def prepare (d : Decoder) (cwd : Location) (id : String) (t : FileTree) : FileTree.Attempt :=
  let dir := d.itemDirectory id
  match t.createDirectories cwd dir with
  | (t, .error e) => (t, .error e)
  | (t, .ok _) => t.clearFrames cwd id dir

/-- An attempt with a program that does `effect`. -/
def decodeBy (d : Decoder) (effect : Effect) (limit : Span) (cwd : Location) (id : String) (t : FileTree) :
    Attempted :=
  match d.prepare cwd id t with
  | (t, .error e) => ⟨t, 0, .error (.system e)⟩
  | (t, .ok _) =>
    let done := effect t
    match done.result.bind (Outcome.toResult limit) with
    | .error fault => ⟨done.tree, done.elapsed, .error fault⟩
    | .ok _ =>
      let (t, result) := d.collect cwd id done.tree
      ⟨t, done.elapsed, result⟩

/-- An attempt that may take `limit`, unless it is given up at `cancelAt`. -/
def decode (d : Decoder) (limit : Span) (cancelAt : Option Nat) (cwd : Location) (item : WorkItem)
    (t : FileTree) : Attempted :=
  d.decodeBy (fun t => (d.invocation item).run t cwd limit cancelAt) limit cwd item.id t

end Decoder

end DecodePipeline
