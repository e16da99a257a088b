import GridShard.Decimal.Text
import GridShard.ElementType

/-!
The causes for which an operation is refused, and the one place where they are put into words.
-/

namespace GridShard

inductive ConfigFault where
  | chunkSize (shape : List Nat) (expected actual : Nat)
  | transformRank (rank : Nat)
  | chunkShapes (left right : List Nat)
  | orderShape (order chunk : List Nat)
  | orderLength (values positions : Nat)
  | polynomialLength (length : Nat)
  | divisor (polynomial : List Single) (value : Single) (coords : List Nat)
  | emptyCatalog
  | catalogShape (chunk catalog : List Nat)
  | unstorableChunk (shape : List Nat)
  | repeatedSymbol (symbol : Int)
  | unknownSymbol (symbol : Int)
  | blockLength (name : String) (length : Nat)
  | headerShapes (shape chunk : List Nat)
  | headerExtent (extent : Nat)
  | directoryCount (chunks : Nat)
  | elementType (name : String)
  | elementCount (shape : List Nat) (expected actual : Nat)
  | byteCount (shape : List Nat) (type : ElementType) (expected actual : Nat)
  | recordRank (rank : Nat)
  | partitionRank (array chunk : Nat)
  | zeroExtent (array chunk : List Nat)
  | outsideGrid (index grid : List Nat)
  | chunkNumber (number total : Nat)
  | writerRank (chunk : List Nat)
  | chunkEdges (chunk : List Nat)
  | writerCatalog (catalog chunk : List Nat)
  | errorBound (bound : Float)
  | noThreads
  | gridRank (shape : List Nat)
  | gridExtents (shape : List Nat)
  | chunkCount (grid : List Nat) (count : Nat)
  | streamLength
  | dataLength (bytes : Nat)
  | cacheCapacity

inductive FormatFault where
  | outOfBits
  | longCode
  | symbolWidth (width : Nat)
  | surplusSymbols (declared : Nat)
  | deepTree
  | symbolCount (declared held : Nat)
  | repeatedSymbol
  | emptyPolynomial
  | streamShape (stream shard : List Nat)
  | polynomial (cause : ConfigFault)
  | emptyTable
  | runLength (run position size : Nat)
  | magic
  | version (found : Nat)
  | emptyHeader
  | headerLength (bytes rank : Nat)
  | zeroExtent
  | shortDirectory
  | directoryLength (count bytes : Nat)
  | missingBlock (name : String)
  | duplicateBlock (name : String)
  | truncatedBlock (offset : Nat)
  | unknownTag (tag : UInt8) (offset : Nat)
  | blockLength (name : String) (length remaining : Nat)
  | recordMagic
  | recordType (tag : Nat)
  | truncatedShape
  | shapeOverflow
  | recordLength (held : Nat) (shape : List Nat) (type : ElementType) (expected : Nat)
  | shortShard (bytes : Nat)
  | shardRank (rank : Nat)
  | chunkEdge (edge : Nat)
  | chunkCount (listed : Nat) (grid : List Nat) (expected : Nat)
  | dataLength (sum held : Nat)

inductive FileFault where
  | notFound
  | unexpectedEnd
  | notDirectory
  | isDirectory
  | denied
  | busy
  | tooLong
  | zeroByte
  | other (text : String)
deriving DecidableEq

inductive Error where
  | config (fault : ConfigFault)
  | range (value low high : Int)
  | unreachableBound (bound best : Float)
  | format (fault : FormatFault)
  | exhausted (filled expected : Nat)
  | file (fault : FileFault)

def ConfigFault.text : ConfigFault → String
  | chunkSize shape expected actual =>
    s!"chunk shape {shapeText shape} needs {expected} samples, got {actual}"
  | transformRank rank => s!"transform supports rank 2 or 3 chunks, got rank {rank}"
  | chunkShapes left right => s!"chunk shape mismatch: {shapeText left} vs {shapeText right}"
  | orderShape order chunk =>
    s!"order shape {shapeText order} does not match chunk shape {shapeText chunk}"
  | orderLength values positions => s!"{values} values for an order of length {positions}"
  | polynomialLength length =>
    s!"quantization polynomial must have 1..=255 coefficients, got {length}"
  | divisor polynomial value coords =>
    s!"quantization polynomial {polynomialText polynomial} yields divisor {value.text} at {shapeText coords}"
  | emptyCatalog => "quantization catalog is empty"
  | catalogShape chunk catalog =>
    s!"chunk shape {shapeText chunk} does not match catalog shape {shapeText catalog}"
  | unstorableChunk shape =>
    s!"chunk shape {shapeText shape} cannot be stored: every edge must be 1..=255"
  | repeatedSymbol symbol => s!"symbol {symbol} listed twice"
  | unknownSymbol symbol => s!"symbol {symbol} not in alphabet"
  | blockLength name length => s!"{name} block of {length} bytes exceeds the u32 length field"
  | headerShapes shape chunk =>
    s!"cannot store header for shape {shapeText shape} with chunk shape {shapeText chunk}"
  | headerExtent extent => s!"extent {extent} outside 1..=65535"
  | directoryCount chunks => s!"{chunks} chunks exceed the u16 directory count"
  | elementType name => s!"unknown data type '{name}'"
  | elementCount shape expected actual =>
    s!"shape {shapeText shape} needs {expected} elements, got {actual}"
  | byteCount shape type expected actual =>
    s!"shape {shapeText shape} of {type.name} needs {expected} bytes, got {actual}"
  | recordRank rank => s!"rank {rank} does not fit the record"
  | partitionRank array chunk => s!"array rank {array} does not match chunk rank {chunk}"
  | zeroExtent array chunk =>
    s!"zero extent in array shape {shapeText array} or chunk shape {shapeText chunk}"
  | outsideGrid index grid => s!"chunk index {shapeText index} outside grid {shapeText grid}"
  | chunkNumber number total => s!"chunk {number} out of range (total {total})"
  | writerRank chunk => s!"shards hold rank-3 chunks, got chunk shape {shapeText chunk}"
  | chunkEdges chunk => s!"chunk edges must be 1..=255, got {shapeText chunk}"
  | writerCatalog catalog chunk =>
    s!"catalog built for {shapeText catalog}, chunks are {shapeText chunk}"
  | errorBound bound => s!"error bound must be positive, got {floatText bound}"
  | noThreads => "thread count must be at least 1"
  | gridRank shape => s!"shards hold rank-3 grids, got shape {shapeText shape}"
  | gridExtents shape => s!"grid extents must not exceed 65535, got {shapeText shape}"
  | chunkCount grid count =>
    s!"grid {shapeText grid} has {count} chunks, at most 65535 fit a shard"
  | streamLength => "chunk stream exceeds u32 length"
  | dataLength bytes => s!"{bytes} bytes of chunk data exceed the u32 block length"
  | cacheCapacity => "shard cache capacity must be at least 1"

def ConfigFault.message (fault : ConfigFault) : String :=
  "invalid configuration: " ++ fault.text

def hexDigit (n : Nat) : Char :=
  Char.ofNat (if n < 10 then 48 + n else 87 + n)

def hexByte (b : UInt8) : String :=
  String.ofList [hexDigit (b.toNat / 16), hexDigit (b.toNat % 16)]

def FormatFault.text : FormatFault → String
  | outOfBits => "bit stream ended unexpectedly"
  | longCode => "Huffman code longer than 64 bits"
  | symbolWidth width => s!"unsupported symbol width {width}"
  | surplusSymbols declared =>
    s!"entropy table holds more than the declared {declared} symbols"
  | deepTree => "entropy table tree too deep"
  | symbolCount declared held => s!"entropy table declares {declared} symbols but holds {held}"
  | repeatedSymbol => "entropy table repeats a symbol"
  | emptyPolynomial => "chunk stream has an empty quantization polynomial"
  | streamShape stream shard =>
    s!"chunk stream shape {shapeText stream} does not match the shard chunk shape {shapeText shard}"
  | polynomial cause => s!"chunk stream carries an unusable polynomial: {cause.message}"
  | emptyTable => "chunk has AC coefficients but the entropy table is empty"
  | runLength run position size =>
    s!"zero run of {run} at position {position} overflows {size} coefficients"
  | magic => "invalid magic bytes, not a DTCOP shard"
  | version found => s!"unsupported shard version {found} (only 0 is supported)"
  | emptyHeader => "empty header block"
  | headerLength bytes rank => s!"header block of {bytes} bytes does not describe rank {rank}"
  | zeroExtent => "header block holds a zero extent"
  | shortDirectory => "directory block shorter than its count field"
  | directoryLength count bytes =>
    s!"directory declares {count} chunks but holds {bytes} bytes of entries"
  | missingBlock name => s!"missing {name} block"
  | duplicateBlock name => s!"duplicate {name} block"
  | truncatedBlock offset => s!"truncated block header at offset {offset}"
  | unknownTag tag offset => s!"unknown block tag 0x{hexByte tag} at offset {offset}"
  | blockLength name length remaining =>
    s!"{name} block claims {length} bytes but only {remaining} remain"
  | recordMagic => "not an NDA1 array record"
  | recordType tag => s!"unknown data type tag {tag}"
  | truncatedShape => "array record truncated in shape"
  | shapeOverflow => "array record shape overflows"
  | recordLength held shape type expected =>
    s!"array record holds {held} element bytes, shape {shapeText shape} of {type.name} needs {expected}"
  | shortShard bytes => s!"{bytes} bytes is too short for a shard"
  | shardRank rank => s!"shards hold rank-3 grids, header says rank {rank}"
  | chunkEdge edge => s!"chunk edge {edge} exceeds 255"
  | chunkCount listed grid expected =>
    s!"directory lists {listed} chunks, grid {shapeText grid} needs {expected}"
  | dataLength sum held =>
    s!"chunk sizes sum to {sum} bytes, chunk-data block holds {held}"

def FileFault.message : FileFault → String
  | notFound => "No such file or directory (os error 2)"
  | unexpectedEnd => "failed to fill whole buffer"
  | notDirectory => "Not a directory (os error 20)"
  | isDirectory => "Is a directory (os error 21)"
  | denied => "Permission denied (os error 13)"
  | busy => "Device or resource busy (os error 16)"
  | tooLong => "File name too long (os error 36)"
  | zeroByte => "file name contained an unexpected NUL byte"
  | other text => text

def Error.message : Error → String
  | config fault => fault.message
  | range value low high => s!"quantized coefficient {value} out of range [{low},{high}]"
  | unreachableBound bound best =>
    s!"no quantization table keeps the error below {floatText bound} (finest table reached {floatText best})"
  | format fault => "malformed shard: " ++ fault.text
  | exhausted filled expected =>
    s!"bit stream exhausted after {filled} of {expected} coefficients"
  | file fault => fault.message

end GridShard
