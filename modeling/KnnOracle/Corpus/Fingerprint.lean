/-
Fingerprints of corpora.

`Corpus.stream` writes a corpus as bytes: its dimension, then for every
record its id and its components, each in eight little-endian bytes. The
stream leaves out the number of records, which follows from its length.
The fingerprint is the BLAKE3 hash of that stream, so two runs can show
each other that they searched the same records in the same order.
-/
import KnnOracle.Corpus
import KnnOracle.Digest.Blake3
import KnnOracle.Text.Hex

namespace KnnOracle

/-- The bytes of a record: its id and its components. -/
def Record.stream (r : Record) : List UInt8 :=
  wordBytes r.id.value ++ r.values.flatMap fun v => wordBytes v.toBits

namespace Corpus

/-- The bytes of a corpus: its dimension and its records in order. -/
def stream (c : Corpus) : List UInt8 :=
  littleEndian 8 c.dimension ++ c.records.flatMap Record.stream

/-- The hash of the stream in hexadecimal digits. -/
def fingerprint (c : Corpus) : String := Text.hex (Blake3.digest c.stream)

end Corpus

end KnnOracle
