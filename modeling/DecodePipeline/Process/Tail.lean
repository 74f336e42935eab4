import DecodePipeline.Text.Utf8

/-!
The end of a stream of bytes: of everything that was appended, only the last bytes are kept.
-/

namespace DecodePipeline

structure Tail where
  bytes : List UInt8
  deriving DecidableEq, Repr

namespace Tail

def limit : Nat := 2048

def empty : Tail := ⟨[]⟩

def append (t : Tail) (chunk : List UInt8) : Tail :=
  let all := t.bytes ++ chunk
  ⟨all.drop (all.length - limit)⟩

def ofChunks (chunks : List (List UInt8)) : Tail :=
  chunks.foldl append empty

def text (t : Tail) : String :=
  Text.decodeLossy t.bytes

end Tail

end DecodePipeline
