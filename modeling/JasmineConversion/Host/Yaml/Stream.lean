import JasmineConversion.Files.Encoding
import JasmineConversion.Literal.Binary64

/-! # Streams of text

A stream gives the text of a file in pieces, and decodes its bytes in blocks as they are needed. A
fault in the encoding shows only in the piece that needs its block, and its position counts from
the start of that block, or of the character that the block before left unfinished.
-/

namespace JasmineConversion

open Text

/-- Where the reading of a stream stands: the bytes left, the character that the last block left
unfinished, the carriage return at its end, which may be half of a line end, the characters that
are decoded but not given yet, and how many bytes and characters the last block had. -/
structure Stream where
  bytes : List UInt8
  pending : Option Encoding.Pending := none
  held : Text := []
  ready : Text := []
  blockBytes : Nat := 0
  blockCharacters : Nat := 0

/-- The pieces that readings of a stream give, and the fault that ends them, if there is one. -/
structure Pieces where
  texts : List Text
  fault : Option EncodingError := none

namespace Stream

/-- How many bytes a block has at least, if there are as many left. -/
def leastBlock : Nat := 8192

/-- How many characters a reading gives, if there are as many left. -/
def pieceSize : Nat := 4096

/-- How many bytes some characters are expected to have: as many as in the last block, and one
byte a character at least. -/
def expectedBytes (stream : Stream) (characters : Nat) : Nat :=
  if stream.blockBytes ≤ stream.blockCharacters then characters
  else
    let density := Binary64.ofRatio false stream.blockBytes stream.blockCharacters
    match density.product (.ofRatio false characters 1) with
    | some size => size.floor
    | none => characters

/-- A text without the carriage return at its end, and that carriage return. -/
def splitReturn (text : Text) : Text × Text :=
  if text.getLast? = some '\r' then (text.dropLast, ['\r']) else (text, [])

/-- Decodes the next block, which is needed for some characters, and tells whether it was the end
of the stream. Positions count from the start of the block, or of the character it goes on with. -/
def nextBlock (stream : Stream) (missing : Nat) : Except EncodingError (Stream × Bool) := do
  let size := Nat.max leastBlock (stream.expectedBytes missing)
  let block := stream.bytes.take size
  let begun := stream.pending.map fun pending => { pending with position := 0 }
  let position := (begun.map (·.bytes.length)).getD 0
  let (decoded, pending) ← Encoding.decodeFrom begun position block
  if block.isEmpty then Encoding.requireFinished pending
  let decoded := stream.held ++ decoded
  let (whole, held) := if block.isEmpty then (decoded, []) else splitReturn decoded
  let text := Encoding.unifyLineEnds whole
  return ({ bytes := stream.bytes.drop size
            pending, held
            ready := stream.ready ++ text
            blockBytes := if text.isEmpty then 0 else block.length
            blockCharacters := text.length },
    block.isEmpty && text.isEmpty)

/-- Reads some characters, or all that are left. Each block has a byte or is one of the last two,
so their number bounds the blocks. -/
def take : (bound missing : Nat) → Stream → Except EncodingError (Text × Stream)
  | 0, _, stream => .ok ([], stream)
  | bound + 1, missing, stream => do
    let taken := stream.ready.take missing
    let stream := { stream with ready := stream.ready.drop missing }
    let missing := missing - taken.length
    if missing = 0 then return (taken, stream)
    else
      let (stream, ended) ← stream.nextBlock missing
      if ended then return (taken, stream)
      else
        let (rest, stream) ← take bound missing stream
        return (taken ++ rest, stream)

/-- Reads the next piece. It is empty at the end of the stream. -/
def read (stream : Stream) : Except EncodingError (Text × Stream) :=
  stream.take (stream.bytes.length + 3) pieceSize

/-- The pieces that are left. Each but the last has a character, so the number of bytes bounds
them. -/
def rest : (bound : Nat) → Stream → Pieces
  | 0, _ => { texts := [] }
  | bound + 1, stream =>
    match stream.read with
    | .error fault => { texts := [], fault := some fault }
    | .ok (piece, stream) =>
      if piece.isEmpty then { texts := [] }
      else
        let pieces := rest bound stream
        { pieces with texts := piece :: pieces.texts }

/-- The pieces of a stream. The first one comes from two readings. -/
def pieces (bytes : List UInt8) : Pieces :=
  let opening : Except EncodingError (Text × Stream) := do
    let (first, stream) ← read { bytes }
    let (second, stream) ← stream.read
    return (first ++ second, stream)
  match opening with
  | .error fault => { texts := [], fault := some fault }
  | .ok (piece, stream) =>
    let pieces := stream.rest (bytes.length + 3)
    { pieces with texts := piece :: pieces.texts }

end Stream

end JasmineConversion
