import MappingTables.OrderedMap
import MappingTables.Zip.Entry

/-!
# The directory of an archive

The end of the directory says where the directory is and how many entries it has. After it there is
only a comment, but a comment can look like an end as well, so the places where an end can be are
tried one after the other, the last one first. Other data can stand before the archive, which then
counts its places from its own start on.

* `Zip.entries?`: the entries of an archive by their names.
-/

namespace MappingTables.Zip

open Packing

/-- How the end of a directory starts. -/
def endMark : Nat := 0x06054b50

/-- How the end of a directory starts that has room for large numbers. -/
def wideEndMark : Nat := 0x06064b50

/-- How the place of such an end starts. -/
def locatorMark : Nat := 0x07064b50

/-- The places from one up to another one where a `mark` stands. -/
def marks (data : ByteArray) (mark start stop : Nat) : List Nat :=
  (List.range' start (stop - start)).filter fun place => number? data place 4 = some mark

/-- Where the entries are. -/
structure Extent where
  /-- How many bytes stand before the archive. -/
  shift : Nat
  /-- Where the first entry stands. -/
  start : Nat
  /-- How many entries there are. -/
  count : Nat

/-- The end of a directory, without large numbers. -/
structure Ending where
  place : Nat
  disk : Nat
  directoryDisk : Nat
  countHere : Nat
  count : Nat
  /-- Where the directory is, counted from the start of the archive. -/
  directory : Nat

/-- Reads the `Ending` of a directory. Its comment has to be there as well. -/
def Ending.read? (data : ByteArray) (place : Nat) : Option Ending := do
  if (← number? data place 4) ≠ endMark then none
  let commentSize ← number? data (place + 20) 2
  let _ ← slice? data (place + 22) commentSize
  return {
    place
    disk := ← number? data (place + 4) 2
    directoryDisk := ← number? data (place + 6) 2
    countHere := ← number? data (place + 8) 2
    count := ← number? data (place + 10) 2
    directory := ← number? data (place + 16) 4 }

/-- Where the entries are, if the directory has no large numbers. The archive starts where its first
entry shows, which is looked for from the place that is said on. -/
def Ending.extent? (data : ByteArray) (e : Ending) : Option Extent := do
  if e.disk ≠ e.directoryDisk then none
  if e.count = 0 then
    let shift := e.place - e.directory
    return { shift, start := e.directory + shift, count := e.countHere }
  let start ← (marks data entryMark e.directory e.place).head?
  return { shift := start - e.directory, start, count := e.countHere }

/-- Where the entries are, if the end of the directory with large numbers is at the given `place`.
It has to reach up to its `locator`, and the entries have to fit before it. -/
def wideExtentAt? (data : ByteArray) (locator stated disk place : Nat) : Option Extent := do
  let size ← number? data (place + 4) 8
  let made ← number? data (place + 12) 2
  let needed ← number? data (place + 14) 2
  let ownDisk ← number? data (place + 16) 4
  let directoryDisk ← number? data (place + 20) 4
  let countHere ← number? data (place + 24) 8
  let count ← number? data (place + 32) 8
  let directory ← number? data (place + 48) 8
  if size < 44 ∨ size + 12 ≠ locator - place ∨ ownDisk ≠ disk then none
  if place < 46 * count + directory then none
  if count < countHere ∨ made < needed ∨ ownDisk ≠ directoryDisk then none
  let shift := place - stated
  return { shift, start := directory + shift, count }

/-- Where the entries are, if the directory has large numbers and its `locator` is at the given
place. -/
def wideExtent? (data : ByteArray) (locator : Nat) : Option Extent := do
  let disk ← number? data (locator + 4) 4
  let stated ← number? data (locator + 8) 8
  let disks ← number? data (locator + 16) 4
  if locator ≤ stated ∨ 1 < disks then none
  (marks data wideEndMark stated locator).findSome? (wideExtentAt? data locator stated disk)

/-- Where the entries are for an end of the directory. -/
def Ending.anyExtent? (data : ByteArray) (e : Ending) : Option Extent :=
  let locator := e.place - 20
  if (e.count = 0xffff ∨ e.directory = wideNumber) ∧ 20 ≤ e.place ∧
      number? data locator 4 = some locatorMark then
    wideExtent? data locator
  else e.extent? data

/-- The entries of a directory by their names. A member's `data` have to start before the directory.
If two have one name, the later one counts. -/
def readEntries? (data : ByteArray) (extent : Extent) :
    (count place : Nat) → OrderedMap String Entry → Option (OrderedMap String Entry)
  | 0, _, entries => some entries
  | count + 1, place, entries => do
    let (entry, next) ← Entry.read? data extent.shift place
    if extent.start ≤ entry.start then none
    readEntries? data extent count next (entries.insert entry.name entry)

/-- The entries of the archive with an end of the directory at the given `place`. -/
def entriesAt? (data : ByteArray) (place : Nat) : Option (OrderedMap String Entry) := do
  let ending ← Ending.read? data place
  let extent ← ending.anyExtent? data
  readEntries? data extent extent.count extent.start ∅

/-- The entries of the archive that bytes stand for, if they are one. -/
def entries? (data : ByteArray) : Option (OrderedMap String Entry) :=
  (marks data endMark 0 data.size).reverse.findSome? (entriesAt? data)

end MappingTables.Zip
