/-!
# Hash tables over symbols

A module's symbols are hashed into buckets, and the table is the only place that tells how many
symbols there are. The symbols of one bucket stand next to each other; a bucket holds the index of
its first symbol, or zero, and a chain word for each hashed symbol has its low bit set where the
symbols of its bucket end. So the symbols reach to the end of the run that the highest bucket
starts.
-/

namespace GpuQuota.Interpose

/-- A hash table without its filter. -/
structure GnuHash where
  /-- the index of the first symbol that is hashed -/
  symbolOffset : Nat
  /-- the lowest symbol of each bucket, or zero for an empty one -/
  buckets : List Nat
  /-- one word for each hashed symbol -/
  chain : List UInt32
  deriving DecidableEq, Repr, Inhabited

namespace GnuHash

/-- The table in the words of a section: the numbers of buckets, of symbols left out and of filter
words, the shift of the filter, the filter in words of double width, the buckets and the chain. -/
def decode? : List UInt32 → Option GnuHash
  | bucketCount :: symbolOffset :: filterCount :: _ :: words =>
    let words := words.drop (2 * filterCount.toNat)
    some {
      symbolOffset := symbolOffset.toNat
      buckets := (words.take bucketCount.toNat).map UInt32.toNat
      chain := words.drop bucketCount.toNat }
  | _ => none

/-- The words of a table without a filter. -/
def words (table : GnuHash) : List UInt32 :=
  [UInt32.ofNat table.buckets.length, UInt32.ofNat table.symbolOffset, 0, 0] ++
    table.buckets.map UInt32.ofNat ++ table.chain

/-- Whether a chain word ends the symbols of a bucket. -/
def isLast (word : UInt32) : Bool := word &&& 1 != 0

/-- How many symbols there are, hashed or not. -/
def symbolCount (table : GnuHash) : Nat :=
  let highest := table.buckets.foldl max 0
  if highest < table.symbolOffset then table.symbolOffset
  else
    let run := table.chain.drop (highest - table.symbolOffset)
    highest + (run.takeWhile fun word => !isLast word).length + 1

/-- The words of a table with one bucket: `hashed` symbols behind `left` others. -/
def single (left hashed : Nat) : GnuHash where
  symbolOffset := left
  buckets := [if hashed = 0 then 0 else left]
  chain := if hashed = 0 then [] else List.replicate (hashed - 1) 0 ++ [1]

end GnuHash

end GpuQuota.Interpose
